import CrashMonitor.Report.Archive
import CrashMonitor.Staging.Archiver
import CrashMonitor.Staging.Attachments

/-!
# Renamed archives

The archiver packs the artifacts of a report in the order of their names, so
every attachment stands before `report.json`. In a renamed archive the loader of
the monitor finds no entry with the stem of the archive, or finds an attachment
that has it, and takes the first JSON entry otherwise.
-/

namespace CrashMonitor.Report

open Lib.CompactText Privacy Staging Interleave List

/-! ## Names of artifacts -/

/-- The entry of an artifact, which opens. -/
def packedEntry (compressed : List UInt8 → Nat) (file : String × List UInt8) : ZipEntry where
  name := file.1
  refused := none
  content := .ok file.2
  size := file.2.length
  compressedSize := compressed file.2

/-- The artifacts of a report: the document, copied attachments, and others of
which none is JSON. -/
def ArtifactName (name : String) : Prop :=
  name = reportName ∨
    (∃ attachment nonce, flatName nonce = true ∧ name = attachmentName attachment nonce) ∨
    flatName name = true ∧ isJsonName name = false

theorem toList_attachmentName {attachment nonce} :
    ∃ rest, (attachmentName attachment nonce).toList = 'a' :: rest := by
  simp [attachmentName, String.toList_append]

theorem flatName_append {a b : String} :
    flatName (a ++ b) = true ↔ flatName a = true ∧ flatName b = true := by
  simp only [flatName, String.toList_append, contains_append, Bool.not_or, Bool.and_eq_true]
  tauto

theorem flatName_component {value fallback : String} {maxLen allowDot}
    (h : flatName fallback = true) :
    flatName (attachmentFilenameComponent value fallback maxLen allowDot) = true := by
  unfold attachmentFilenameComponent
  dsimp only
  split
  · exact h
  · have hchar : ∀ c : Char, (if c.isAlphanum || c = '-' || c = '_' || (allowDot && c = '.') then c
        else '_') ≠ '/' ∧ (if c.isAlphanum || c = '-' || c = '_' || (allowDot && c = '.') then c
        else '_') ≠ '\\' := by
      intro c
      split
      · next hc =>
        constructor
        · rintro rfl
          simp at hc
        · rintro rfl
          simp at hc
      · decide
    simp only [flatName, String.toList_ofList, Bool.and_eq_true, Bool.not_eq_true',
      contains_eq_mem, decide_eq_false_iff_not, mem_map, not_exists, not_and]
    exact ⟨fun c _ => (hchar c).1, fun c _ => (hchar c).2⟩

theorem flatName_attachmentName {attachment nonce} (h : flatName nonce = true) :
    flatName (attachmentName attachment nonce) = true := by
  simp only [attachmentName, flatName_append]
  exact ⟨⟨⟨⟨⟨by decide, flatName_component (by decide)⟩, by decide⟩, h⟩, by decide⟩,
    flatName_component (by decide)⟩

/-! ## The entries of an archive -/

/-- What `ZIPArchiver` packs. -/
structure Packed (entries : List ZipEntry) : Prop where
  opens : ∀ entry ∈ entries, entry.opens = true
  fits : entries.length ≤ maxZipEntries
  sorted : entries.Pairwise fun entry next => entry.name < next.name
  report : ∃ entry ∈ entries, entry.name = reportName
  named : ∀ entry ∈ entries, ArtifactName entry.name

theorem Packed.flat {entries} (h : Packed entries) :
    ∀ entry ∈ entries, flatName entry.name = true := by
  intro entry hentry
  rcases h.named entry hentry with heq | ⟨attachment, nonce, hnonce, heq⟩ | ⟨hflat, -⟩
  · rw [heq]
    decide
  · rw [heq]
    exact flatName_attachmentName hnonce
  · exact hflat

theorem packed_of_holds {s entries} (h : Staging.Holds s entries)
    (hreport : reportName ∈ s.registry.keys) (hnames : ∀ name ∈ s.registry.keys, ArtifactName name)
    (compressed : List UInt8 → Nat) : Packed (entries.map (packedEntry compressed)) := by
  have hkeys : (entries.map (packedEntry compressed)).map (·.name) = s.registry.keys := by
    rw [map_map, ← h.collected.paths_eq]
    rfl
  refine ⟨?_, ?_, ?_, ?_, ?_⟩
  · intro entry hentry
    obtain ⟨file, -, rfl⟩ := mem_map.mp hentry
    rfl
  · rw [← length_map (·.name), hkeys]
    exact h.collected.fits
  · have hsorted := s.registry.keys_sorted
    rwa [← hkeys, pairwise_map] at hsorted
  · rw [← hkeys] at hreport
    exact mem_map.mp hreport
  · intro entry hentry
    apply hnames
    rw [← hkeys]
    exact mem_map_of_mem hentry

/-- Every JSON entry but the report stands before it. -/
theorem Packed.split {entries} (h : Packed entries) : ∃ before report after,
    entries = before ++ report :: after ∧ report.name = reportName ∧
      (∀ entry ∈ before, isJson entry = true → ∃ rest, entry.name.toList = 'a' :: rest) ∧
      (∀ entry ∈ before, entry.name ≠ reportName) ∧
      ∀ entry ∈ after, isJson entry = false ∧ entry.name ≠ reportName := by
  obtain ⟨report, hmem, hreport⟩ := h.report
  obtain ⟨before, after, rfl⟩ := append_of_mem hmem
  have hsorted := h.sorted
  rw [pairwise_append, pairwise_cons] at hsorted
  obtain ⟨-, ⟨hafter, -⟩, hbefore⟩ := hsorted
  have hname : ∀ entry ∈ before ++ report :: after, entry.name ≠ reportName →
      isJson entry = true → ∃ rest, entry.name.toList = 'a' :: rest := by
    intro entry hentry hne hjson
    rcases h.named entry hentry with heq | ⟨attachment, nonce, -, heq⟩ | ⟨-, hplain⟩
    · exact absurd heq hne
    · rw [heq]
      exact toList_attachmentName
    · cases hplain.symm.trans hjson
  have hne : ∀ entry ∈ before, entry.name ≠ reportName := by
    intro entry hentry heq
    have hlt := hbefore entry hentry report mem_cons_self
    rw [heq, hreport] at hlt
    exact absurd hlt (lt_irrefl _)
  refine ⟨before, report, after, rfl, hreport,
    fun entry hentry => hname entry (mem_append_left _ hentry) (hne entry hentry), hne, ?_⟩
  intro entry hentry
  have hlt := hafter entry hentry
  rw [hreport] at hlt
  refine ⟨?_, ne_of_gt hlt⟩
  by_contra hjson
  -- a copied attachment does not come behind the report
  obtain ⟨rest, hrest⟩ := hname entry (by simp [hentry]) (ne_of_gt hlt)
    (Bool.not_eq_false _ ▸ hjson)
  rw [String.lt_iff_toList_lt, hrest] at hlt
  revert hlt
  simp [reportName, cons_lt_cons_iff]

/-! ## Which entry is read -/

section

variable {stem : Option Text}

theorem isJson_of_matchesStem {entry}
    (h : matchesStem stem entry = true) : isJson entry = true := by
  cases stem with
  | none => cases h
  | some stem =>
    have heq : foldCase entry.name.toList = foldCase (stem ++ dotJson) := by
      simpa [matchesStem] using h
    rw [isJson, isJsonName, isSuffixOf_iff_suffix, heq, foldCase, map_append]
    exact suffix_append _ _

theorem foldCase_eq_of_matchesStem {entry other}
    (h : matchesStem stem entry = true) (hother : matchesStem stem other = true) :
    foldCase entry.name.toList = foldCase other.name.toList := by
  cases stem with
  | none => cases h
  | some stem => exact (of_decide_eq_true h).trans (of_decide_eq_true hother).symm

theorem matchesStem_report {entry} (h : entry.name = reportName) :
    matchesStem stem entry = true ↔ stem.map foldCase = some "report".toList := by
  cases stem with
  | none => simp [matchesStem]
  | some stem =>
    have hsame : foldCase reportName.toList = "report".toList ++ foldCase dotJson := by decide
    simp only [matchesStem, h, hsame, decide_eq_true_eq, Option.map_some, Option.some.injEq]
    rw [foldCase, foldCase, map_append, append_left_inj, eq_comm]
    rfl

/-- The loader reads the entry `report.json`. -/
def ReadsReport (stem : Option Text) (entries : List ZipEntry) : Prop :=
  ∃ index entry, monitorPick stem entries = .ok index ∧ entries[index]? = some entry ∧
    entry.name = reportName ∧ readReportJsonFromZip stem entries = readReportEntry entry

theorem readsReport_iff {before report after} (hreport : report.name = reportName)
    (hbefore : ∀ entry ∈ before, entry.name ≠ reportName)
    (hafter : ∀ entry ∈ after, entry.name ≠ reportName) :
    ReadsReport stem (before ++ report :: after) ↔
      (monitorPick stem (before ++ report :: after)).toOption = some before.length := by
  constructor
  · rintro ⟨index, entry, hpick, hentry, hname, -⟩
    rw [hpick]
    rw [List.getElem?_append] at hentry
    split at hentry
    · exact absurd hname (hbefore entry (mem_of_getElem? hentry))
    rw [List.getElem?_cons] at hentry
    split at hentry
    · next hzero => rw [show index = before.length by omega]; rfl
    · exact absurd hname (hafter entry (mem_of_getElem? hentry))
  · intro hpick
    cases hcase : monitorPick stem (before ++ report :: after) with
    | error e =>
      rw [hcase] at hpick
      cases hpick
    | ok index =>
      rw [hcase] at hpick
      cases hpick
      have hentry : (before ++ report :: after)[before.length]? = some report := by simp
      refine ⟨_, report, hcase, hentry, hreport, ?_⟩
      rw [readReportJsonFromZip, hcase]
      simp only [hentry]

theorem findIdx?_middle {p} (before after : List ZipEntry) (report : ZipEntry) :
    (before ++ report :: after).findIdx? p = some before.length ↔
      (∀ entry ∈ before, p entry = false) ∧ p report = true := by
  rw [List.findIdx?_append, List.findIdx?_cons]
  cases hfirst : before.findIdx? p with
  | some index =>
    obtain ⟨hlt, hp, -⟩ := List.findIdx?_eq_some_iff_getElem.mp hfirst
    constructor
    · intro heq
      cases heq
      exact absurd hlt (Nat.lt_irrefl _)
    · intro hnone
      rw [hnone.1 _ (getElem_mem hlt)] at hp
      cases hp
  | none =>
    have hbefore : ∀ entry ∈ before, p entry = false := by simpa using hfirst
    cases hp : p report with
    | true => simpa using hbefore
    | false =>
      simp only [Bool.false_eq_true, if_false, and_false, iff_false, Option.none_or]
      cases after.findIdx? p with
      | none => simp
      | some index =>
        simp only [Option.map_some, Option.some.injEq]
        omega

/-- The monitor reads the report from its archive exactly if the archive is
called `report.zip` in any case, or no attachment is JSON. -/
theorem Packed.readsReport_iff {entries} (h : Packed entries) :
    ReadsReport stem entries ↔ stem.map foldCase = some "report".toList ∨
      ∀ entry ∈ entries, entry.name ≠ reportName → isJson entry = false := by
  have hpick := monitorPick_of_opens stem h.fits h.flat h.opens
  obtain ⟨before, report, after, rfl, hreport, hjsonBefore, hbefore, hafter⟩ := h.split
  have hjson : isJson report = true := by
    rw [isJson, hreport]
    decide
  have hnone : (∀ entry ∈ before ++ report :: after, entry.name ≠ reportName →
      isJson entry = false) ↔ ∀ entry ∈ before, isJson entry = false := by
    constructor
    · intro hall entry hentry
      exact hall entry (mem_append_left _ hentry) (hbefore entry hentry)
    intro hfree entry hentry hne
    rcases mem_append.mp hentry with hentry | hentry
    · exact hfree entry hentry
    rcases mem_cons.mp hentry with rfl | hentry
    · exact absurd hreport hne
    · exact (hafter entry hentry).1
  have hunmatched : ∀ entry, isJson entry = false → matchesStem stem entry = false := by
    intro entry hplain
    by_contra hmatches
    cases hplain.symm.trans (isJson_of_matchesStem (Bool.not_eq_false _ ▸ hmatches))
  rw [Report.readsReport_iff hreport hbefore fun entry hentry => (hafter entry hentry).2, hpick,
    Option.or_eq_some_iff, findIdx?_middle, findIdx?_middle, List.findIdx?_eq_none_iff, hnone,
    ← matchesStem_report hreport]
  constructor
  · rintro (hmatches | ⟨-, hfree, -⟩)
    · exact .inl hmatches.2
    · exact .inr hfree
  rintro (hmatches | hfree)
  · refine .inl ⟨fun entry hentry => ?_, hmatches⟩
    by_contra hother
    have hother : matchesStem stem entry = true := Bool.not_eq_false _ ▸ hother
    have hfold := foldCase_eq_of_matchesStem hother hmatches
    obtain ⟨rest, hrest⟩ := hjsonBefore entry hentry (isJson_of_matchesStem hother)
    rw [hrest, hreport] at hfold
    exact absurd (List.cons.inj hfold).1 (by decide)
  · cases hmatches : matchesStem stem report with
    | true => exact .inl ⟨fun entry hentry => hunmatched entry (hfree entry hentry), rfl⟩
    | false =>
      refine .inr ⟨?_, hfree, hjson⟩
      rw [forall_mem_append, forall_mem_cons]
      exact ⟨fun entry hentry => hunmatched entry (hfree entry hentry), hmatches,
        fun entry hentry => hunmatched entry (hafter entry hentry).1⟩

end

/-! ## Archives of a run -/

section

variable {zip : ZipCodec} {reliable : Bool} {s s' : Folder} {result : Except String Unit}
  (hrun : Run (stagingStep reliable) (archiveReport zip).run s result s')
  (hnew : archiveName ∉ s.registry.keys) (hregistered : archiveName ∈ s'.registry.keys)
include hrun hnew hregistered

/-- The archive a run has registered. -/
theorem exists_packed : ∃ entries, s'.files archiveName = some (zip.encode entries) ∧
    Staging.Holds s entries := by
  have hnotKept : ¬ Kept s s' := fun hkept => hnew (hkept.2.1 ▸ hregistered)
  rcases ended_of_run hrun with hkept | ⟨⟨-, entries, hholds, harchive⟩, -⟩
  · exact absurd hkept hnotKept
  · exact ⟨entries, harchive, hholds⟩

/-- **Renamed archives.** Of the archive a run of the archiver has registered,
under whatever name, the monitor reads the report exactly if that name is
`report.zip` in any case, or no other artifact is JSON. -/
theorem renamed_archive_read_iff (hreport : reportName ∈ s.registry.keys)
    (hnames : ∀ name ∈ s.registry.keys, ArtifactName name) (compressed : List UInt8 → Nat)
    (stem : Option Text) : ∃ archive entries,
      s'.files archiveName = some archive ∧ zip.decode archive = some entries ∧
      (ReadsReport stem (entries.map (packedEntry compressed)) ↔
        stem.map foldCase = some "report".toList ∨
          ∀ name ∈ s.registry.keys, name ≠ reportName → isJsonName name = false) := by
  obtain ⟨entries, harchive, hholds⟩ := exists_packed hrun hnew hregistered
  refine ⟨_, entries, harchive, zip.decode_encode entries, ?_⟩
  rw [(packed_of_holds hholds hreport hnames compressed).readsReport_iff,
    ← hholds.collected.paths_eq]
  simp only [mem_map, forall_exists_index, and_imp, forall_apply_eq_imp_iff₂]
  rfl

end

open BusyFile

theorem artifactName_of_busyFile : ∀ name ∈ folder.registry.keys, ArtifactName name := by
  have hkeys : folder.registry.keys = [attachmentName ⟨"settings", "/tmp/settings.json"⟩ "0",
      reportName, "threads.txt"] := by decide +kernel
  intro name hname
  rw [hkeys, mem_cons, mem_cons, mem_singleton] at hname
  rcases hname with rfl | rfl | rfl
  · exact .inr (.inl ⟨_, _, by decide, rfl⟩)
  · exact .inl rfl
  · exact .inr (.inr ⟨by decide, by decide⟩)

/-- Under its own name the archive opens as the report. -/
theorem report_zip_read : ∃ archive entries,
    final.2.files archiveName = some archive ∧ BusyFile.zip.decode archive = some entries ∧
      ReadsReport (some "Report".toList) (entries.map (packedEntry length)) := by
  obtain ⟨archive, entries, harchive, hdecode, hreads⟩ := renamed_archive_read_iff run
    (by decide +kernel) (by decide +kernel) (by decide +kernel) artifactName_of_busyFile length
    (some "Report".toList)
  exact ⟨archive, entries, harchive, hdecode, hreads.mpr (.inl (by decide))⟩

/-- An archive that was renamed to `crash.zip` opens as the configuration file. -/
theorem renamed_archive_opens_attachment : ∃ archive entries,
    final.2.files archiveName = some archive ∧ BusyFile.zip.decode archive = some entries ∧
      ¬ ReadsReport (some "crash".toList) (entries.map (packedEntry length)) := by
  obtain ⟨entries, harchive, hholds⟩ := exists_packed run (by decide +kernel) (by decide +kernel)
  refine ⟨_, entries, harchive, BusyFile.zip.decode_encode entries, ?_⟩
  rw [(packed_of_holds hholds (by decide +kernel) artifactName_of_busyFile length).readsReport_iff,
    not_or]
  refine ⟨by decide, fun hfree => ?_⟩
  have hmem : settingsName ∈ entries.map Prod.fst := by
    rw [hholds.collected.paths_eq]
    decide +kernel
  obtain ⟨file, hfile, heq⟩ := mem_map.mp hmem
  have hname : (packedEntry length file).name = settingsName := heq
  have hplain := hfree (packedEntry length file) (mem_map_of_mem hfile) (by rw [hname]; decide)
  rw [isJson, hname] at hplain
  revert hplain
  decide

end CrashMonitor.Report
