import CrashMonitor.Staging.Copy
import CrashMonitor.Lib.Serial
import Mathlib.Data.List.Sort

/-!
# Archiving a report

`ZIPArchiver` of `postprocessors/zip_archiver.rs` for a report with a
transaction: the registered artifacts are read into a temporary archive, the
archive is published, and the originals are removed one by one. The ZIP library
is a codec: what was written to it can be read back.
-/

namespace CrashMonitor.Staging

open Lib Store Interleave Function List

def maxArchiveEntries : Nat := 256
def maxArchiveFileBytes : Nat := 256 * 1024 * 1024
def maxArchiveTotalBytes : Nat := 512 * 1024 * 1024
def streamBufferBytes : Nat := 64 * 1024

/-- The entries of an archive, and the bytes they are stored in. -/
structure ZipCodec where
  encode : List (String × Bytes) → Bytes
  decode : Bytes → Option (List (String × Bytes))
  decode_encode : ∀ entries, decode (encode entries) = some entries

structure ArchiveEntry where
  path : String
  size : Nat

def archiveName : String := "report.zip"

/-! ## Collecting -/

/-- The loop of `collect_report_files`. -/
def collectEntries : List String → List ArchiveEntry → Nat → Task (List ArchiveEntry)
  | [], files, _ => pure files
  | path :: paths, files, total => do
    checkpoint
    if files.length ≥ maxArchiveEntries then
      throw s!"report manifest exceeds archive entry limit ({maxArchiveEntries})"
    else
      let size ← (fileSize path).mapError fun e => s!"cannot inspect '{path}': {e}"
      if size > maxArchiveFileBytes then
        throw (s!"archive input '{path}' exceeds per-file limit " ++
          s!"({size} > {maxArchiveFileBytes})")
      else if total + size > maxArchiveTotalBytes then
        throw ("report family exceeds total archive limit " ++
          s!"({total + size} > {maxArchiveTotalBytes})")
      else collectEntries paths (files ++ [⟨path, size⟩]) (total + size)

/-- `collect_report_files`. -/
def collectReportFiles : Task (List ArchiveEntry) := do
  checkpoint
  let registered ← artifacts
  let files ← collectEntries (registered.map Prod.fst) [] 0
  pure (files.insertionSort fun a b => a.path ≤ b.path)

/-! ## Writing -/

/-- The read loop of one input: the bytes passed on, and the new total. A round
passes on at least one byte, so the limit is met before the rounds are used up. -/
def archiveChunks (path : String) : Nat → Bytes → Nat → Task (Bytes × Nat)
  | 0, _, _ => throw s!"archive input '{path}' exceeded per-file limit while reading"
  | rounds + 1, written, total => do
    checkpoint
    match ← readAt path written.length streamBufferBytes with
    | .error e => throw s!"cannot read '{path}': {e.text}"
    | .ok [] => pure (written, total)
    | .ok (b :: data) =>
      if written.length + (b :: data).length > maxArchiveFileBytes then
        throw s!"archive input '{path}' exceeded per-file limit while reading"
      else if total + (b :: data).length > maxArchiveTotalBytes then
        throw "archive input exceeded total limit while reading"
      else
        (probe "write to the ZIP").mapError fun e => s!"ZIP write failed: {e}"
        checkpoint
        archiveChunks path rounds (written ++ b :: data) (total + (b :: data).length)

/-- `open_regular_file`. -/
def openRegularFile (path : String) : Task Unit := do
  let size ← (fileSize path).mapError fun e => s!"cannot safely open archive input '{path}': {e}"
  if size > maxArchiveFileBytes then
    throw s!"archive input '{path}' exceeds per-file limit ({size} > {maxArchiveFileBytes})"
  else pure ()

/-- The loop of `write_zip`: the entries of the archive. -/
def archiveEntries : List ArchiveEntry → List (String × Bytes) → Nat → Task (List (String × Bytes))
  | [], entries, _ => pure entries
  | file :: files, entries, total => do
    checkpoint
    openRegularFile file.path
    let size ← (fileSize file.path).mapError fun e => s!"cannot inspect '{file.path}': {e}"
    if size ≠ file.size then
      throw s!"archive input '{file.path}' changed size ({file.size} -> {size})"
    else
      (probe "start the ZIP entry").mapError fun e => s!"ZIP start_file failed: {e}"
      let (data, total) ← archiveChunks file.path (maxArchiveFileBytes + 1) [] total
      if data.length ≠ file.size then
        throw (s!"archive input '{file.path}' changed size while reading " ++
          s!"({data.length} != {file.size})")
      else archiveEntries files (entries ++ [(file.path, data)]) total

section

variable (zip : ZipCodec)

/-- `write_zip`. -/
def writeZip (temporary : String) (files : List ArchiveEntry) : Task Unit := do
  checkpoint
  let entries ← archiveEntries files [] 0
  (writeAll temporary (zip.encode entries)).mapError fun e => s!"ZIP finalize failed: {e}"
  (probe "sync the ZIP").mapError fun e => s!"ZIP sync failed: {e}"

/-- The archive written and published, with the temporary file removed if that
fails. -/
def publishArchive (temporary : String) (files : List ArchiveEntry) : Task Unit :=
  publishThrough temporary archiveName (fun e => s!"ZIP rename failed: {e}") do
    (writeZip zip temporary files).mapError fun e => s!"ZIP creation failed: {e}"
    checkpoint

/-- The removal of one original; a failure is only logged. -/
def removeOriginal (path : String) : Task Unit := do
  match ← remove path with
  | .ok _ | .error .missing => forget path
  | .error _ => pure ()

def removeOriginals : List ArchiveEntry → Task Unit
  | [] => pure ()
  | file :: files => do
    checkpoint
    removeOriginal file.path
    removeOriginals files

/-- The result once the archive is published. -/
def archivedResult (files : List ArchiveEntry) (result : ReportResult) : ReportResult where
  jsonPath := some archiveName
  artifactPaths :=
    if archiveName ∈ result.artifactPaths then result.artifactPaths
    else result.artifactPaths ++ [archiveName]
  rawPath :=
    if result.rawPath.any fun raw => files.any fun file => file.path = raw then none
    else result.rawPath

/-- `ZIPArchiver::process` from the collected files on. -/
def archiveFiles (files : List ArchiveEntry) : Task Unit := do
  let nonce ← uuid
  let temporary := s!".report.zip-{nonce}.tmp"
  (create temporary).mapError fun e => s!"ZIP creation failed: cannot create ZIP file: {e}"
  publishArchive zip temporary files
  let _ ← (probe "sync the directory").outcome
  register archiveName .archive
  let result ← reportResult
  setResult (archivedResult files result)
  removeOriginals files
  checkpoint

/-- `ZIPArchiver::process`. -/
def archiveReport : Task Unit := do
  checkpoint
  match (← reportResult).jsonPath with
  | none => pure ()
  | some _ =>
    (probe "open the directory").mapError fun e => e
    let files ← collectReportFiles
    if files.isEmpty then pure () else archiveFiles zip files

end

/-! ## What is read -/

section Reads

variable {reliable : Bool} {s : Folder}

theorem reads_fileSize (path : String) : Reads reliable s (fileSize path) fun size =>
      ∃ data, s.files path = some data ∧ size = data.length := by
  intro r s' hstep
  cases r with
  | ok size =>
    refine ⟨hstep.2, ?_⟩
    rintro _ ⟨⟩
    exact hstep.1
  | error e => exact ⟨hstep, by simp⟩

/-- Whatever the sizes of the chunks, the whole content is passed on. -/
theorem reads_archiveChunks {path all} (hfile : s.files path = some all)
    {rounds written} (hwritten : written = all.take written.length) {total} :
    Reads reliable s (archiveChunks path rounds written total) fun found => found.1 = all := by
  induction rounds generalizing written total with
  | zero => exact .throw
  | succ rounds ih =>
    refine .bind reads_checkpoint fun _ _ => ?_
    intro r s' hstep
    cases r with
    | error e => exact ⟨hstep, by simp⟩
    | ok data =>
      obtain ⟨⟨all', hall, hdata, -, hend⟩, rfl⟩ := hstep
      cases hfile.symm.trans hall
      cases data with
      | nil =>
        have hlength : all.length ≤ written.length := by
          rcases hend rfl with h | h
          · cases h
          · exact h
        rw [take_of_length_le hlength] at hwritten
        exact Reads.pure hwritten
      | cons b data =>
        show Reads _ _ (ite _ _ _) _
        split
        · exact .throw
        split
        · exact .throw
        refine .bind (reads_probe _).mapError fun _ _ => ?_
        refine .bind reads_checkpoint fun _ _ => ?_
        apply ih
        rw [length_append, take_add, ← hwritten, ← hdata]

theorem reads_archiveEntries (files : List ArchiveEntry) (entries : List (String × Bytes))
    (total : Nat) : Reads reliable s (archiveEntries files entries total) fun found =>
      ∃ more, found = entries ++ more ∧ more.map Prod.fst = files.map (·.path) ∧
        ∀ e ∈ more, s.files e.1 = some e.2 := by
  induction files generalizing entries total with
  | nil => exact .pure ⟨[], by simp⟩
  | cons file files ih =>
    refine .bind reads_checkpoint fun _ _ => ?_
    refine .bind (Q := fun _ => True) ?_ fun _ _ => ?_
    · unfold openRegularFile
      refine .bind (reads_fileSize _).mapError fun size _ => ?_
      split
      · exact .throw
      · exact .pure trivial
    refine .bind (reads_fileSize _).mapError fun size hsize => ?_
    obtain ⟨all, hfile, -⟩ := hsize
    split
    · exact .throw
    refine .bind (reads_probe _).mapError fun _ _ => ?_
    refine .bind (reads_archiveChunks hfile rfl) fun found hfound => ?_
    obtain ⟨data, total'⟩ := found
    cases hfound
    dsimp only
    split
    · exact .throw
    apply (ih _ total').mono
    rintro _ ⟨more, rfl, hnames, hmore⟩
    exact ⟨(file.path, data) :: more, by simp, by simp [hnames],
      forall_mem_cons.mpr ⟨hfile, hmore⟩⟩

theorem reads_collectEntries (paths : List String) {files : List ArchiveEntry} {total : Nat}
    (hfiles : files.length ≤ maxArchiveEntries) :
    Reads reliable s (collectEntries paths files total) fun found =>
      found.map (·.path) = files.map (·.path) ++ paths ∧ found.length ≤ maxArchiveEntries ∧
        ∀ path ∈ paths, s.files path ≠ none := by
  induction paths generalizing files total with
  | nil => exact .pure ⟨(append_nil _).symm, hfiles, by simp⟩
  | cons path paths ih =>
    refine .bind reads_checkpoint fun _ _ => ?_
    split
    · exact .throw
    next hmore =>
    refine .bind (reads_fileSize path).mapError fun size hsize => ?_
    obtain ⟨data, hdata, -⟩ := hsize
    split
    · exact .throw
    split
    · exact .throw
    have hlength : (files ++ [(⟨path, size⟩ : ArchiveEntry)]).length ≤ maxArchiveEntries := by
      rw [length_append, length_singleton]
      omega
    apply (ih hlength).mono
    rintro found ⟨hfound, hbound, hpaths⟩
    exact ⟨by rw [hfound, map_append, append_assoc]; rfl, hbound,
      forall_mem_cons.mpr ⟨by simp [hdata], hpaths⟩⟩

/-- What is collected of a report: its artifacts, in the order of their names. -/
structure Collected (s : Folder) (paths : List String) : Prop where
  paths_eq : paths = s.registry.keys
  fits : s.registry.keys.length ≤ maxArchiveEntries
  there : ∀ path ∈ s.registry.keys, s.files path ≠ none

theorem reads_collectReportFiles : Reads reliable s collectReportFiles fun files =>
      Collected s (files.map (·.path)) := by
  refine .bind reads_checkpoint fun _ _ => ?_
  refine .bind (Q := fun list => list = s.registry.entries) ?_ fun list hlist => ?_
  · intro r s' hstep
    refine ⟨hstep.2, ?_⟩
    rintro _ ⟨⟩
    exact hstep.1
  refine .bind (reads_collectEntries _ (Nat.zero_le _)) fun files hfiles => .pure ?_
  subst hlist
  obtain ⟨hpaths, hbound, hthere⟩ := hfiles
  have hkeys : files.map (·.path) = s.registry.keys := hpaths
  -- the registry lists its names in order, so the sort leaves them in place
  have hsorted : files.Pairwise fun a b => a.path ≤ b.path := by
    have hkeysSorted := s.registry.keys_sorted
    rw [← hkeys, pairwise_map] at hkeysSorted
    exact hkeysSorted.imp le_of_lt
  rw [hsorted.insertionSort_eq]
  exact ⟨hkeys, by rw [← hkeys, length_map]; exact hbound, hthere⟩

end Reads

/-! ## What is kept -/

/-- The archive of the artifacts that were registered. -/
structure Holds (s : Folder) (entries : List (String × Bytes)) : Prop where
  collected : Collected s (entries.map Prod.fst)
  files : ∀ e ∈ entries, s.files e.1 = some e.2

/-- Nothing has been removed, and the result is as it was. -/
def Kept (s s' : Folder) : Prop :=
  (∀ name data, s.files name = some data → s'.files name = some data) ∧
    s'.registry = s.registry ∧ s'.result = s.result

/-- The archive is in its place. -/
def Archived (zip : ZipCodec) (s s' : Folder) : Prop :=
  s.files archiveName = none ∧ ∃ entries, Holds s entries ∧
    s'.files archiveName = some (zip.encode entries)

theorem Abandoned.kept {new s s'} (h : Abandoned new s s') : Kept s s' := by
  obtain ⟨files, read, rfl, hspares⟩ := h
  exact ⟨fun name data hdata => hspares.kept hdata, rfl, rfl⟩

section Does

variable {reliable : Bool} {s : Folder} (zip : ZipCodec)

theorem does_publishArchive {temporary files}
    (hfree : s.files temporary = none) (hfiles : Collected s (files.map (·.path))) :
    Does reliable (s.copying temporary [] s.taken) (publishArchive zip temporary files)
      (fun _ s' => s.files archiveName = none ∧ ∃ entries, Holds s entries ∧
        s' = s.setFile archiveName (some (zip.encode entries))) (Kept s) := by
  have hwrite : Does reliable (s.copying temporary [] s.taken) (writeZip zip temporary files)
      (fun _ s' => ∃ written read, (read = s.taken ∧ ∃ entries, Holds s entries ∧
        written = zip.encode entries) ∧ s' = s.copying temporary written read)
      (s.Filling temporary) := by
    refine .read reads_checkpoint ⟨_, _, rfl⟩ fun _ _ => ?_
    refine .read (reads_archiveEntries files [] 0) ⟨_, _, rfl⟩ fun entries hread => ?_
    obtain ⟨_, rfl, hnames, hentries⟩ := hread
    have hholds : Holds s entries := by
      refine ⟨hnames ▸ hfiles, fun e he => ?_⟩
      -- no artifact is the temporary file
      have hne : e.1 ≠ temporary := by
        intro heq
        have hmem : e.1 ∈ s.registry.keys := by
          rw [← hfiles.paths_eq, ← hnames]
          exact mem_map_of_mem he
        exact hfiles.there _ hmem (heq ▸ hfree)
      have hfile := hentries e he
      rwa [Folder.copying_files, update_of_ne hne] at hfile
    apply (does_writeAll (zip.encode entries)).mapError.bind
    rintro _ _ rfl
    exact .still (reads_probe _).mapError
      (fun _ _ => ⟨_, _, ⟨rfl, entries, hholds, rfl⟩, rfl⟩) ⟨_, _, rfl⟩
  refine (does_publishThrough (P := fun _ written read => read = s.taken ∧
    ∃ entries, Holds s entries ∧ written = zip.encode entries) hfree
    (.bind hwrite.mapError ?_)).mono ?_ ?_
  · exact fun _ _ h => .still reads_checkpoint (fun _ _ => h)
      (h.imp fun _ h => h.imp fun _ h => h.2)
  · rintro _ _ ⟨_, _, ⟨rfl, entries, hholds, rfl⟩, hdestination, rfl⟩
    exact ⟨hdestination, entries, hholds, rfl⟩
  · rintro _ ⟨nonce, h⟩
    exact h.kept

/-- Once it is registered, the archive stays in its place. -/
def Guards (archive : Bytes) (s : Folder) : Prop :=
  s.files archiveName = some archive ∧ archiveName ∈ s.registry.keys

theorem does_removeOriginals {archive files}
    (hfiles : ∀ file ∈ files, file.path ≠ archiveName) (hs : Guards archive s) :
    Keeps reliable s (removeOriginals files) (Guards archive) := by
  induction files generalizing s with
  | nil => exact .pure hs
  | cons file files ih =>
    have hne : archiveName ≠ file.path := (hfiles file mem_cons_self).symm
    have hforget : ∀ {s : Folder}, Guards archive s →
        Keeps reliable s (forget file.path) (Guards archive) := by
      intro s hs r s' hstep
      cases r with
      | error e =>
        rw [show s' = s from hstep]
        exact hs
      | ok u =>
        have hkept : Guards archive s' := by
          rw [show s' = s.unregister file.path from hstep]
          exact ⟨hs.1, (SortedMap.mem_keys_erase ..).mpr ⟨hne, hs.2⟩⟩
        rintro result _ ⟨rfl, rfl⟩ _ _ rfl
        exact hkept
    refine .read reads_checkpoint hs fun _ _ => ?_
    refine .bind (Q := fun _ => Guards archive) ?_ fun _ s' hs' =>
      ih (fun f hf => hfiles f (mem_cons_of_mem file hf)) hs'
    intro r s' hstep
    cases r with
    | ok u =>
      obtain ⟨-, rfl⟩ := hstep
      exact hforget ⟨(update_of_ne hne ..).trans hs.1, hs.2⟩
    | error e =>
      cases e with
      | missing =>
        obtain ⟨-, rfl⟩ := hstep
        exact hforget hs
      | _ =>
        obtain ⟨-, rfl⟩ := hstep
        exact hs

/-- What a run of the archiver can end in. -/
def Ended (s s' : Folder) : Prop :=
  Kept s s' ∨ Archived zip s s' ∧ (Kept s s' ∨ archiveName ∈ s'.registry.keys)

theorem does_archiveFiles {files} (hfiles : Collected s (files.map (·.path))) :
    Keeps reliable s (archiveFiles zip files) (Ended zip s) := by
  have hrefl : Kept s s := ⟨fun _ _ h => h, rfl, rfl⟩
  have hset : ∀ {name : String} {data : Bytes}, s.files name = none →
      Kept s (s.setFile name (some data)) := fun hfree =>
    Abandoned.kept ⟨_, s.taken, rfl, ((Spares.refl _).update hfree fun _ _ => trivial :
      Spares (fun _ _ => True) _ _)⟩
  refine .read reads_uuid (.inl hrefl) fun nonce _ => ?_
  generalize hname : s!".report.zip-{nonce}.tmp" = temporary
  apply ((does_create temporary).weaken fun _ h => .inl h.kept).mapError.bind
  rintro _ _ ⟨hfree, rfl⟩
  apply ((does_publishArchive zip hfree hfiles).weaken fun _ h => .inl h).bind
  rintro _ _ ⟨harchive, entries, hholds, rfl⟩
  have harchived : ∀ s', s'.files archiveName = some (zip.encode entries) →
      Archived zip s s' := fun s' h => ⟨harchive, entries, hholds, h⟩
  have hpublished : Archived zip s (s.setFile archiveName (some (zip.encode entries))) :=
    harchived _ (s.setFile_same ..)
  have hsync : Ensures (stagingStep reliable) (s.setFile archiveName (some (zip.encode entries)))
      (probe "sync the directory").run fun _ s' =>
        s' = s.setFile archiveName (some (zip.encode entries)) := fun _ _ hstep => hstep
  apply (Achieves.outcome hsync).seq
  rintro _ _ rfl
  intro r s' hstep
  cases r with
  | error e =>
    rw [show s' = _ from hstep]
    exact .inr ⟨hpublished, .inl (hset harchive)⟩
  | ok u =>
    obtain ⟨-, -, rfl⟩ := hstep
    rintro result _ ⟨rfl, rfl⟩ _ _ rfl
    have hends : ∀ s', Guards (zip.encode entries) s' → Ended zip s s' :=
      fun s' h => .inr ⟨harchived s' h.1, .inr h.2⟩
    have hother : ∀ file ∈ files, file.path ≠ archiveName := by
      intro file hfile heq
      have hmem : file.path ∈ s.registry.keys := by
        rw [← hfiles.paths_eq]
        exact mem_map_of_mem hfile
      exact hfiles.there _ hmem (heq ▸ harchive)
    refine Does.bind ((does_removeOriginals hother ?_).mono (fun _ => hends) hends)
      fun _ s' hs => ?_
    · exact ⟨Folder.setFile_same s archiveName _, (SortedMap.mem_keys_insert ..).mpr (.inl rfl)⟩
    · exact .still reads_checkpoint (fun _ _ => hs) hs

theorem does_archiveReport : Keeps reliable s (archiveReport zip) (Ended zip s) := by
  have hrefl : Ended zip s s := .inl ⟨fun _ _ h => h, rfl, rfl⟩
  refine .read reads_checkpoint hrefl fun _ _ => ?_
  have hresult : Reads reliable s reportResult fun _ => True :=
    fun _ _ hstep => ⟨hstep.2, fun _ _ => trivial⟩
  refine .read hresult hrefl fun result _ => ?_
  split
  · exact .pure hrefl
  refine .read (reads_probe _).mapError hrefl fun _ _ => ?_
  refine .read reads_collectReportFiles hrefl fun files hfiles => ?_
  split
  · exact .pure hrefl
  · exact does_archiveFiles zip hfiles

end Does

theorem ended_of_run {zip reliable s s' result}
    (hrun : Run (stagingStep reliable) (archiveReport zip).run s result s') : Ended zip s s' := by
  have hdone := (does_archiveReport zip).run hrun
  cases result <;> exact hdone

/-- However the files are read and whatever call fails, every artifact that was
registered is still there and registered, or is one entry of the registered
archive, under its own name and with its own bytes. Unless the archive has been
published, nothing was removed and the result is as it was. -/
theorem archiving_loses_nothing (zip : ZipCodec) (reliable : Bool) (s s' : Folder)
    (result : Except String Unit)
    (hrun : Run (stagingStep reliable) (archiveReport zip).run s result s') :
    (∀ name data, name ∈ s.registry.keys → s.files name = some data →
      (s'.files name = some data ∧ name ∈ s'.registry.keys) ∨
      (archiveName ∈ s'.registry.keys ∧ ∃ archive entries,
        s'.files archiveName = some archive ∧ zip.decode archive = some entries ∧
        (entries.map Prod.fst).Nodup ∧ (name, data) ∈ entries)) ∧
    (Archived zip s s' ∨ Kept s s') := by
  have hended := ended_of_run hrun
  have hkept : Kept s s' → ∀ name data, name ∈ s.registry.keys → s.files name = some data →
      s'.files name = some data ∧ name ∈ s'.registry.keys := by
    intro h name data hname hdata
    exact ⟨h.1 name data hdata, h.2.1 ▸ hname⟩
  refine ⟨fun name data hname hdata => ?_, hended.elim .inr fun h => .inl h.1⟩
  rcases hended with h | ⟨⟨-, entries, hholds, harchive⟩, h | hregistered⟩
  · exact .inl (hkept h name data hname hdata)
  · exact .inl (hkept h name data hname hdata)
  refine .inr ⟨hregistered, _, entries, harchive, zip.decode_encode entries, ?_, ?_⟩
  · rw [hholds.collected.paths_eq]
    exact s.registry.keys_nodup
  rw [← hholds.collected.paths_eq] at hname
  obtain ⟨e, he, rfl⟩ := mem_map.mp hname
  cases (hholds.files e he).symm.trans hdata
  exact he

namespace BusyFile

/-- A plain archive format: the entries one after another. -/
def format : Serial (List (String × Bytes)) :=
  .list (.pair .text (.view (fun data : Bytes => data.map UInt8.toNat)
    (fun values => some (values.map UInt8.ofNat)) (by
      intro data
      simp [comp_def]) (.list .natural)))

def zip : ZipCodec := ⟨format.put, format.read, format.read_put⟩

def settingsName : String := "attachment-settings-0.json"

/-- A report with an attachment and the threads of the first stage. -/
def folder : Folder where
  files name := List.lookup name
    [(settingsName, [91, 93]), ("report.json", [123, 125]), ("threads.txt", [35])]
  registry := ((SortedMap.empty.insert "threads.txt" .threadRaw).insert settingsName
    .attachment).insert "report.json" .report
  attachments := []
  result := ⟨["report.json"], none, some "report.json"⟩
  taken := []

/-- Every call is served, but the threads cannot be removed. -/
def handle : (o : StagingOp) → Folder → o.Res × Folder
  | .remove name, s =>
    if name = "threads.txt" then (.error (.other "busy"), s) else oblige [] false (.remove name) s
  | o, s => oblige [] false o s

theorem handle_step (o : StagingOp) (s : Folder) :
    stagingStep false o s (handle o s).1 (handle o s).2 := by
  cases o with
  | remove name =>
    by_cases hthreads : name = "threads.txt"
    · simp only [handle, if_pos hthreads]
      exact ⟨Bool.noConfusion, rfl⟩
    · simp only [handle, if_neg hthreads]
      exact stagingStep_of_reliable (oblige_step [] false (.remove name) s)
  | _ => exact stagingStep_of_reliable (oblige_step [] false _ s)

def final : Except String Unit × Folder := (archiveReport zip).run.exec handle folder

theorem run : Run (stagingStep false) (archiveReport zip).run folder final.1 final.2 :=
  .of_exec handle_step _ _

end BusyFile

open BusyFile

/-- The report and the attachment are removed and are entries of the archive;
the file that cannot be removed stays. -/
theorem busy_file_archived :
    (final.2.files "report.json" = none ∧ final.2.files settingsName = none ∧
      final.2.files "threads.txt" = some [35]) ∧
    ∃ archive entries, final.2.files archiveName = some archive ∧
      zip.decode archive = some entries ∧ ("report.json", [123, 125]) ∈ entries ∧
      (settingsName, [91, 93]) ∈ entries := by
  have hreport : final.2.files "report.json" = none := by decide +kernel
  have hsettings : final.2.files settingsName = none := by decide +kernel
  have hkept := (archiving_loses_nothing zip false folder final.2 final.1 run).1
  refine ⟨⟨hreport, hsettings, by decide +kernel⟩, ?_⟩
  rcases hkept "report.json" [123, 125] (by decide +kernel) rfl with
    ⟨hthere, -⟩ | ⟨-, archive, entries, harchive, hdecode, -, hmem⟩
  · cases hreport.symm.trans hthere
  rcases hkept settingsName [91, 93] (by decide +kernel) rfl with
    ⟨hthere, -⟩ | ⟨-, archive', entries', harchive', hdecode', -, hmem'⟩
  · cases hsettings.symm.trans hthere
  cases harchive.symm.trans harchive'
  cases hdecode.symm.trans hdecode'
  exact ⟨archive, entries, harchive, hdecode, hmem, hmem'⟩

end CrashMonitor.Staging
