import CrashMonitor.Report.Portable

/-!
# Reports in ZIP archives

How the monitor (`pipeline/report.rs`) and the portable loader
(`crash-report-core`) choose the report among the entries of an archive, and
which documents they accept. The rules were written independently: the monitor
compares names without regard to case, the portable loader asks for the exact
stem of the archive and for a file name with a JSON extension.

Names are flat here: the monitor refuses an archive with another one.
-/

namespace CrashMonitor.Report

open Lib Lib.Decode Lib.CompactText Privacy List Option

structure ZipEntry where
  name : String
  /-- What `by_index` says against opening the entry, if anything. -/
  refused : Option String
  /-- The decompressed bytes, or the error of reading them. -/
  content : Except String (List UInt8)
  size : Nat
  compressedSize : Nat

def ZipEntry.opens (entry : ZipEntry) : Bool := entry.refused.isNone

/-- A name without a directory. -/
def flatName (name : String) : Bool := !name.toList.contains '/' && !name.toList.contains '\\'

/-! ## The portable loader -/

section

variable (enclosed : String → Bool) (stem : Option Text)

/-- The text before and behind the last dot. -/
def splitAtLastDot (name : Text) : Option (Text × Text) :=
  match name.reverse.dropWhile (· != '.') with
  | [] => none
  | _ :: before => some (before.reverse, (name.reverse.takeWhile (· != '.')).reverse)

/-- The stem of a JSON file name: `extension` is `None` when nothing is before
the dot. -/
def jsonStem (name : Text) : Option Text :=
  match splitAtLastDot name with
  | none => none
  | some (before, extension) =>
    if before.isEmpty then none
    else if foldCase extension = ['j', 's', 'o', 'n'] then some before
    else none

/-- A name the portable loader takes for a report. Which names `enclosed_name`
accepts is up to the ZIP library. -/
def candidateStem (entry : ZipEntry) : Option Text :=
  if enclosed entry.name then jsonStem entry.name.toList else none

/-- The loop of `load_zip_report` from `index` on. -/
def portableScan (enclosed : String → Bool) (stem : Option Text) :
    Nat → Option Nat → List ZipEntry → Except PortableLoadError (Option Nat)
  | _, fallback, [] => .ok fallback
  | index, fallback, entry :: rest =>
    match entry.refused with
    | some error => .error (.invalidArchive error)
    | none =>
      match candidateStem enclosed entry with
      | none => portableScan enclosed stem (index + 1) fallback rest
      | some name =>
        if stem = some name then .ok (some index)
        else portableScan enclosed stem (index + 1) (fallback.or (some index)) rest

/-- The entry `load_zip_report` reads, for the stem of the archive. -/
def portablePick (entries : List ZipEntry) : Except PortableLoadError Nat :=
  match portableScan enclosed stem 0 none entries with
  | .error error => .error error
  | .ok none => .error .missingReport
  | .ok (some index) => .ok index

/-! ## The loader of the monitor -/

def maxZipEntries : Nat := 256

/-- `MAX_REPORT_SIZE`. -/
def maxReportSize : Nat := 256 * 1024 * 1024

def maxZipCompressionRatio : Nat := 1000

inductive MonitorZipError where
  | tooManyEntries (entries : Nat)
  | uninspectable (error : String)
  | nested (name : String)
  | noReport
  | tooLarge (bytes : Nat)
  | unreadable (error : String)
  | decompressedBeyond
  | compressionRatio
  deriving DecidableEq, Repr

/-- The first loop of `read_report_json_from_zip_file`. -/
def inspectEntries : List ZipEntry → Except MonitorZipError Unit
  | [] => .ok ()
  | entry :: rest =>
    match entry.refused with
    | some error => .error (.uninspectable error)
    | none => if flatName entry.name then inspectEntries rest else .error (.nested entry.name)

def dotJson : Text := ['.', 'j', 's', 'o', 'n']

/-- `base.eq_ignore_ascii_case("<stem>.json")`. -/
def matchesStem (entry : ZipEntry) : Bool :=
  match stem with
  | none => false
  | some stem => foldCase entry.name.toList = foldCase (stem ++ dotJson)

/-- `base.to_ascii_lowercase().ends_with(".json")`. -/
def isJsonName (name : String) : Bool := dotJson.isSuffixOf (foldCase name.toList)

def isJson (entry : ZipEntry) : Bool := isJsonName entry.name

/-- The loop of `find_report_json_index` from `index` on. -/
def findReportJson (stem : Option Text) : Nat → Option Nat → List ZipEntry → Option Nat
  | _, firstJson, [] => firstJson
  | index, firstJson, entry :: rest =>
    if !entry.opens then findReportJson stem (index + 1) firstJson rest
    else if matchesStem stem entry then some index
    else findReportJson stem (index + 1)
      (if firstJson.isNone && isJson entry then some index else firstJson) rest

/-- The entry `read_report_json_from_zip_file` reads. -/
def monitorPick (entries : List ZipEntry) : Except MonitorZipError Nat :=
  if entries.length > maxZipEntries then .error (.tooManyEntries entries.length)
  else match inspectEntries entries with
    | .error error => .error error
    | .ok () =>
      match findReportJson stem 0 none entries with
      | none => .error .noReport
      | some index => .ok index

/-- How `read_report_json_from_zip_file` reads the entry it chose. -/
def readReportEntry (entry : ZipEntry) : Except MonitorZipError (List UInt8) :=
  if entry.size > maxReportSize then .error (.tooLarge entry.size)
  else match entry.content with
    | .error error => .error (.unreadable error)
    | .ok content =>
      let bytes := content.take (maxReportSize + 1)
      if bytes.length > maxReportSize then .error .decompressedBeyond
      else if bytes.length > 0 && (entry.compressedSize == 0 ||
          bytes.length / max entry.compressedSize 1 > maxZipCompressionRatio) then
        .error .compressionRatio
      else .ok bytes

def readReportJsonFromZip (entries : List ZipEntry) : Except MonitorZipError (List UInt8) :=
  match monitorPick stem entries with
  | .error error => .error error
  | .ok index =>
    match entries[index]? with
    | none => .error .noReport
    | some entry => readReportEntry entry

/-! ## What the two loops find -/

def isCandidate (entry : ZipEntry) : Bool := (candidateStem enclosed entry).isSome

/-- The entry with exactly the stem of the archive. -/
def exactStem (entry : ZipEntry) : Bool :=
  (candidateStem enclosed entry).isSome && stem = candidateStem enclosed entry

end

section

variable (enclosed : String → Bool) (stem : Option Text)
variable {entries : List ZipEntry} {entry : ZipEntry}

theorem opens_iff {entry : ZipEntry} : entry.opens = true ↔ entry.refused = none := by
  rw [ZipEntry.opens, isNone_iff_eq_none]

theorem map_add_succ (found : Option Nat) (index : Nat) :
    (found.map (· + 1)).map (· + index) = found.map (· + (index + 1)) := by
  cases found with
  | none => rfl
  | some i => rw [map_some, map_some, map_some, Nat.add_assoc, Nat.add_comm 1 index]

/-- The loop over entries that open: it stops at the exact stem, or goes on
behind them with the first candidate as the fallback. -/
theorem portableScan_append {before rest : List ZipEntry}
    (hopens : ∀ entry ∈ before, entry.opens = true) {index fallback} :
    portableScan enclosed stem index fallback (before ++ rest) =
      match before.findIdx? (exactStem enclosed stem) with
      | some i => .ok (some (i + index))
      | none => portableScan enclosed stem (index + before.length)
          (fallback.or ((before.findIdx? (isCandidate enclosed)).map (· + index))) rest := by
  induction before generalizing index fallback with
  | nil => simp
  | cons entry before ih =>
    have hrefused := (opens_iff).mp (hopens entry mem_cons_self)
    have hbefore : ∀ entry ∈ before, entry.opens = true :=
      fun entry hmem => hopens entry (mem_cons_of_mem _ hmem)
    have hlength : index + 1 + before.length = index + (entry :: before).length := by
      rw [length_cons]
      omega
    rw [cons_append, portableScan, hrefused]
    cases hstem : candidateStem enclosed entry with
    | none =>
      have hexact : exactStem enclosed stem entry = false := by simp [exactStem, hstem]
      have hcandidate : isCandidate enclosed entry = false := by simp [isCandidate, hstem]
      simp only [ih hbefore, List.findIdx?_cons, hexact, hcandidate, Bool.false_eq_true,
        if_false, map_add_succ, hlength]
      cases before.findIdx? (exactStem enclosed stem) with
      | none => rfl
      | some i => simp only [map_some, Nat.add_assoc, Nat.add_comm 1 index]
    | some name =>
      have hcandidate : isCandidate enclosed entry = true := by simp [isCandidate, hstem]
      by_cases hname : stem = some name
      · have hexact : exactStem enclosed stem entry = true := by simp [exactStem, hstem, hname]
        simp only [if_pos hname, List.findIdx?_cons, hexact, if_true, Nat.zero_add]
      have hexact : exactStem enclosed stem entry = false := by simp [exactStem, hstem, hname]
      have hfallback : ∀ later, (fallback.or (some index)).or later = fallback.or (some index) := by
        intro later
        cases fallback <;> rfl
      simp only [if_neg hname, ih hbefore, List.findIdx?_cons, hexact, hcandidate,
        Bool.false_eq_true, if_false, if_true, hlength, hfallback, map_some, Nat.zero_add]
      cases before.findIdx? (exactStem enclosed stem) with
      | none => rfl
      | some i => simp only [map_some, Nat.add_assoc, Nat.add_comm 1 index]

/-- The portable loader's choice among entries that open. -/
theorem portablePick_of_opens (hopens : ∀ entry ∈ entries, entry.opens = true) :
    (portablePick enclosed stem entries).toOption =
      (entries.findIdx? (exactStem enclosed stem)).or
        (entries.findIdx? (isCandidate enclosed)) := by
  have hscan : portableScan enclosed stem 0 none (entries ++ []) = _ :=
    portableScan_append enclosed stem hopens
  rw [append_nil] at hscan
  rw [portablePick, hscan]
  cases entries.findIdx? (exactStem enclosed stem) with
  | some i => rfl
  | none => cases entries.findIdx? (isCandidate enclosed) <;> rfl

/-- An entry that does not open ends the search, unless the exact stem came
before it. -/
theorem portablePick_of_refused {before after : List ZipEntry}
    (hopens : ∀ entry ∈ before, entry.opens = true) (hrefused : entry.opens = false) :
    (portablePick enclosed stem (before ++ entry :: after)).toOption =
      before.findIdx? (exactStem enclosed stem) := by
  obtain ⟨error, herror⟩ : ∃ error, entry.refused = some error := by
    rw [← ne_none_iff_exists']
    intro hnone
    rw [(opens_iff).mpr hnone] at hrefused
    cases hrefused
  rw [portablePick, portableScan_append enclosed stem hopens]
  cases before.findIdx? (exactStem enclosed stem) with
  | some i => rfl
  | none =>
    rw [portableScan, herror]
    rfl

theorem inspectEntries_of_opens (hflat : ∀ entry ∈ entries, flatName entry.name = true)
    (hopens : ∀ entry ∈ entries, entry.opens = true) : inspectEntries entries = .ok () := by
  induction entries with
  | nil => rfl
  | cons entry rest ih =>
    rw [inspectEntries, (opens_iff).mp (hopens entry mem_cons_self)]
    simp only [hflat entry mem_cons_self, if_true]
    exact ih (fun entry hmem => hflat entry (mem_cons_of_mem _ hmem))
      (fun entry hmem => hopens entry (mem_cons_of_mem _ hmem))

theorem inspectEntries_of_refused (hmem : entry ∈ entries) (hrefused : entry.opens = false) :
    ∃ error, inspectEntries entries = .error error := by
  induction entries with
  | nil => cases hmem
  | cons first rest ih =>
    rw [inspectEntries]
    cases hfirst : first.refused with
    | some error => exact ⟨_, rfl⟩
    | none =>
      simp only
      split
      · apply ih
        rcases mem_cons.mp hmem with rfl | hmem
        · rw [(opens_iff).mpr hfirst] at hrefused
          cases hrefused
        · exact hmem
      · exact ⟨_, rfl⟩

theorem findReportJson_of_opens (hopens : ∀ entry ∈ entries, entry.opens = true)
    (index : Nat) (firstJson : Option Nat) :
    findReportJson stem index firstJson entries =
      ((entries.findIdx? (matchesStem stem)).map (· + index)).or
        (firstJson.or ((entries.findIdx? isJson).map (· + index))) := by
  induction entries generalizing index firstJson with
  | nil => simp [findReportJson]
  | cons entry rest ih =>
    have hopen := hopens entry mem_cons_self
    have hrest : ∀ entry ∈ rest, entry.opens = true :=
      fun entry hmem => hopens entry (mem_cons_of_mem _ hmem)
    rw [findReportJson]
    simp only [hopen, Bool.not_true, Bool.false_eq_true, if_false, List.findIdx?_cons]
    cases hmatches : matchesStem stem entry with
    | true => simp
    | false =>
      simp only [Bool.false_eq_true, if_false, ih hrest, map_add_succ]
      congr 1
      cases firstJson with
      | some first => simp
      | none =>
        cases hjson : isJson entry with
        | true => simp
        | false => simp only [Bool.and_false, Bool.false_eq_true, if_false, map_add_succ]

/-- The monitor's choice among entries that open. -/
theorem monitorPick_of_opens (hcount : entries.length ≤ maxZipEntries)
    (hflat : ∀ entry ∈ entries, flatName entry.name = true)
    (hopens : ∀ entry ∈ entries, entry.opens = true) :
    (monitorPick stem entries).toOption =
      (entries.findIdx? (matchesStem stem)).or (entries.findIdx? isJson) := by
  have hfind := findReportJson_of_opens stem hopens 0 none
  rw [monitorPick, if_neg (Nat.not_lt.mpr hcount), inspectEntries_of_opens hflat hopens]
  simp only [hfind]
  cases entries.findIdx? (matchesStem stem) with
  | some i => rfl
  | none => cases entries.findIdx? isJson <;> rfl

theorem monitorPick_of_refused (hmem : entry ∈ entries) (hrefused : entry.opens = false) :
    (monitorPick stem entries).toOption = none := by
  obtain ⟨error, herror⟩ := inspectEntries_of_refused hmem hrefused
  unfold monitorPick
  split
  · rfl
  · rw [herror]
    rfl

end

/-! ## When the choices agree -/

theorem splitAtLastDot_eq_some {name before extension}
    (h : splitAtLastDot name = some (before, extension)) : name = before ++ '.' :: extension := by
  unfold splitAtLastDot at h
  cases hdrop : name.reverse.dropWhile (· != '.') with
  | nil =>
    rw [hdrop] at h
    cases h
  | cons c rest =>
    rw [hdrop] at h
    cases h
    have hdot : c = '.' := by
      have hhead := List.head?_dropWhile_not (· != '.') name.reverse
      rw [hdrop] at hhead
      simpa using hhead
    have hwhole := takeWhile_append_dropWhile (p := (· != '.')) (l := name.reverse)
    rw [hdrop, hdot] at hwhole
    have hreverse := congrArg List.reverse hwhole
    rw [reverse_append, reverse_cons, reverse_reverse, append_assoc]
      at hreverse
    exact hreverse.symm

variable {enclosed : String → Bool} {stem : Option Text} {entry : ZipEntry}
  {members : List (String × Json)}

/-- The portable loader's exact match is one of the monitor's matches. -/
theorem matchesStem_of_exactStem (h : exactStem enclosed stem entry = true) :
    matchesStem stem entry = true := by
  simp only [exactStem, Bool.and_eq_true, decide_eq_true_eq] at h
  obtain ⟨hsome, rfl⟩ := h
  obtain ⟨before, hbefore⟩ := isSome_iff_exists.mp hsome
  rw [hbefore]
  unfold candidateStem at hbefore
  split at hbefore
  swap
  · cases hbefore
  unfold jsonStem at hbefore
  cases hsplit : splitAtLastDot entry.name.toList with
  | none =>
    rw [hsplit] at hbefore
    cases hbefore
  | some parts =>
    obtain ⟨front, extension⟩ := parts
    rw [hsplit] at hbefore
    simp only at hbefore
    split at hbefore
    · cases hbefore
    split at hbefore
    next hjson =>
      cases hbefore
      have hname := splitAtLastDot_eq_some hsplit
      simp only [matchesStem, decide_eq_true_eq]
      rw [hname, foldCase_append, foldCase_append]
      congr 1
      show '.'.toLower :: foldCase extension = _
      rw [hjson]
      rfl
    · cases hbefore

/-- The two loaders read the same entry, or none. -/
def SamePick (enclosed : String → Bool) (stem : Option Text) (entries : List ZipEntry) : Prop :=
  (portablePick enclosed stem entries).toOption = (monitorPick stem entries).toOption

/-- The archives on which they do. -/
structure Aligned (enclosed : String → Bool) (stem : Option Text)
    (entries : List ZipEntry) : Prop where
  /-- No exact stem is read in front of an entry that does not open. -/
  refused : (∃ entry ∈ entries, entry.opens = false) →
    ∀ entry ∈ entries.takeWhile (·.opens), exactStem enclosed stem entry = false
  /-- The first stem in any case is the first exact one, or there is no exact
  one and it is the portable loader's first JSON entry. -/
  preferred : (∀ entry ∈ entries, entry.opens = true) →
    ∀ m, entries.findIdx? (matchesStem stem) = some m →
      entries.findIdx? (exactStem enclosed stem) = some m ∨
      (entries.findIdx? (exactStem enclosed stem) = none ∧
        entries.findIdx? (isCandidate enclosed) = some m)
  /-- Without the stem, the first JSON entry is one for the portable loader. -/
  fallback : (∀ entry ∈ entries, entry.opens = true) → entries.findIdx? (matchesStem stem) = none →
    entries.findIdx? (isCandidate enclosed) = entries.findIdx? isJson

theorem samePick_iff_aligned {entries} (hcount : entries.length ≤ maxZipEntries)
    (hflat : ∀ entry ∈ entries, flatName entry.name = true) :
    SamePick enclosed stem entries ↔ Aligned enclosed stem entries := by
  by_cases hopens : ∀ entry ∈ entries, entry.opens = true
  · have hexact : entries.findIdx? (matchesStem stem) = none →
        entries.findIdx? (exactStem enclosed stem) = none := by
      rw [List.findIdx?_eq_none_iff, List.findIdx?_eq_none_iff]
      intro hnone entry hmem
      rw [Bool.eq_false_iff]
      intro hentry
      have hmatch := matchesStem_of_exactStem hentry
      rw [hnone entry hmem] at hmatch
      cases hmatch
    unfold SamePick
    rw [portablePick_of_opens enclosed stem hopens, monitorPick_of_opens stem hcount hflat hopens]
    constructor
    · intro hsame
      refine { refused := ?_, preferred := ?_, fallback := ?_ }
      · rintro ⟨entry, hmem, hrefused⟩
        rw [hopens entry hmem] at hrefused
        cases hrefused
      · intro _ m hm
        rw [hm, some_or] at hsame
        cases hfirst : entries.findIdx? (exactStem enclosed stem) with
        | none =>
          rw [hfirst, none_or] at hsame
          exact .inr ⟨rfl, hsame⟩
        | some i =>
          rw [hfirst, some_or] at hsame
          exact .inl hsame
      · intro _ hnone
        rwa [hnone, hexact hnone, none_or, none_or] at hsame
    · intro haligned
      cases hm : entries.findIdx? (matchesStem stem) with
      | none =>
        rw [hexact hm, none_or, none_or]
        exact haligned.fallback hopens hm
      | some m =>
        rcases haligned.preferred hopens m hm with hfirst | ⟨hfirst, hcandidate⟩
        · rw [hfirst]
          rfl
        · rw [hfirst, hcandidate]
          rfl
  · -- the monitor refuses the archive
    obtain ⟨entry, after, hafter, hrefused⟩ : ∃ entry after,
        entries.dropWhile (·.opens) = entry :: after ∧ entry.opens = false := by
      cases hdrop : entries.dropWhile (·.opens) with
      | nil => exact absurd (dropWhile_eq_nil_iff.mp hdrop) hopens
      | cons entry after =>
        have hhead := List.head?_dropWhile_not (fun entry : ZipEntry => entry.opens) entries
        rw [hdrop] at hhead
        exact ⟨entry, after, rfl, by simpa using hhead⟩
    have hentries : entries.takeWhile (·.opens) ++ entry :: after = entries := by
      rw [← hafter, takeWhile_append_dropWhile]
    have hbefore : ∀ other ∈ entries.takeWhile (·.opens), other.opens = true :=
      fun other hmem => mem_takeWhile_imp hmem
    have hmem : entry ∈ entries := by
      rw [← hentries]
      simp
    have hpick : (portablePick enclosed stem
        (entries.takeWhile (·.opens) ++ entry :: after)).toOption = _ :=
      portablePick_of_refused enclosed stem hbefore hrefused
    rw [hentries] at hpick
    unfold SamePick
    rw [monitorPick_of_refused stem hmem hrefused, hpick, List.findIdx?_eq_none_iff]
    constructor
    · intro hsame
      refine { refused := ?_, preferred := ?_, fallback := ?_ }
      · intro _
        exact hsame
      · intro hall
        exact absurd hall hopens
      · intro hall
        exact absurd hall hopens
    · intro haligned
      exact haligned.refused ⟨entry, hmem, hrefused⟩

/-! ## Versions -/

/-- `header.version` is the supported one. -/
def SupportedVersion (document : Json) : Prop :=
  pointer ["header", "version"] document = some (.number reportSchemaVersion)

def PortableRejects (parse : JsonParser) (file : List UInt8) : Prop :=
  ∃ error, loadPlainReport parse (.ok file) = .error error

def MonitorRejects (document : Json) : Prop := ∃ error, decodeReport (some document) = .error error

/-- The portable loader takes every document. -/
theorem not_portableRejects {parse file document}
    (hsize : file.length ≤ portableReportBytes) (hparse : parse file = .ok document) :
    ¬ PortableRejects parse file := by
  rintro ⟨error, herror⟩
  have htake : file.take (portableReportBytes + 1) = file :=
    take_of_length_le (Nat.le_succ_of_le hsize)
  unfold loadPlainReport readBounded at herror
  simp only [htake, if_neg (Nat.not_lt.mpr hsize), hparse] at herror
  cases herror

theorem unsigned_eq_one {value} (h : unsigned 32 value = some reportSchemaVersion) :
    value = .number reportSchemaVersion := by
  obtain ⟨n, hn, hone⟩ := map_eq_some_iff.mp h
  have hpositive : n = 1 := by
    unfold reportSchemaVersion at hone
    omega
  rw [integer_eq_some hn, hpositive]
  rfl

/-- A header given as an array of one element has no time. -/
theorem decodeHeader_of_one {value header} : decodeHeader (.array [value]) ≠ some header := by
  intro h
  obtain ⟨source, hfields⟩ := finish_eq_some h
  obtain ⟨version, afterVersion, hversion, hfields⟩ := bind_eq_some.mp hfields
  obtain ⟨-, rfl⟩ := field_elements hversion
  obtain ⟨reportId, afterId, hid, hfields⟩ := bind_eq_some.mp hfields
  cases hid
  obtain ⟨timestamp, afterTime, htime, -⟩ := bind_eq_some.mp hfields
  cases htime

/-- The version an object gives, when its header can be read. -/
theorem version_of_envelope {version header rest}
    (henvelope : decodeVersionEnvelope (.object members) = some version)
    (hheader : field "header" decodeHeader (.members members) = some (header, rest)) :
    ∃ value, pointer ["header", "version"] (.object members) = some value ∧
      unsigned 32 value = some version := by
  obtain ⟨source, hfield⟩ := finish_eq_some henvelope
  obtain ⟨given, hgiven, hversion⟩ := field_members hfield
  obtain ⟨given', hgiven', hdecoded⟩ := field_members hheader
  rw [hgiven] at hgiven'
  cases hgiven'
  have hpointer : pointer ["header", "version"] (.object members) = pointer ["version"] given := by
    show (member? "header" (.object members)).bind (pointer ["version"]) = _
    rw [hgiven, bind_some]
  rw [hpointer]
  cases given with
  | object fields =>
    obtain ⟨source, hfield⟩ := finish_eq_some hversion
    obtain ⟨value, hvalue, hunsigned⟩ := field_members hfield
    refine ⟨value, ?_, hunsigned⟩
    show (member? "version" (.object fields)).bind (pointer []) = _
    rw [hvalue]
    rfl
  | array values =>
    -- one element is left over in the header, or the time is missing
    obtain ⟨source, hfield⟩ := finish_eq_some hversion
    cases values with
    | nil => cases hfield
    | cons value values =>
      obtain ⟨-, rfl⟩ := field_elements hfield
      cases values with
      | nil => exact absurd hdecoded decodeHeader_of_one
      | cons other values =>
        have hleft : finish (field "version" (unsigned 32)
            (.elements (value :: other :: values))) = some version := hversion
        rw [hfield] at hleft
        cases hleft
  | null | bool value | number value | string text => cases hversion

/-- The monitor asks an object for the supported version. -/
theorem supportedVersion_of_decoded {report}
    (h : decodeReport (some (.object members)) = .ok report) :
    SupportedVersion (.object members) := by
  unfold decodeReport at h
  simp only [bind_some] at h
  cases henvelope : decodeVersionEnvelope (.object members) with
  | none =>
    rw [henvelope] at h
    cases h
  | some version =>
    rw [henvelope] at h
    simp only at h
    split at h
    · cases h
    next hversion =>
      rw [not_not] at hversion
      subst hversion
      cases hreport : decodeCrashReport (.object members) with
      | none =>
        rw [hreport] at h
        cases h
      | some decoded =>
        obtain ⟨source, hfields⟩ := finish_eq_some hreport
        obtain ⟨header, rest, hheader, -⟩ := bind_eq_some.mp hfields
        obtain ⟨value, hvalue, hunsigned⟩ := version_of_envelope henvelope hheader
        rw [SupportedVersion, hvalue, unsigned_eq_one hunsigned]

theorem monitorRejects_of_unsupported (h : ¬ SupportedVersion (.object members)) :
    MonitorRejects (.object members) := by
  cases hdecode : decodeReport (some (.object members)) with
  | error error => exact ⟨error, hdecode⟩
  | ok report => exact absurd (supportedVersion_of_decoded hdecode) h

/-- The loaders choose the same entry exactly in aligned archives. Of the
documents without the supported version the monitor rejects every object; the
portable loader rejects none of them. -/
theorem loaders_agree_iff (enclosed : String → Bool) (stem : Option Text)
    (entries : List ZipEntry) (hcount : entries.length ≤ maxZipEntries)
    (hflat : ∀ entry ∈ entries, flatName entry.name = true) (parse : JsonParser) :
    (SamePick enclosed stem entries ↔ Aligned enclosed stem entries) ∧
    ∀ file document, file.length ≤ portableReportBytes → parse file = .ok document →
      ¬ SupportedVersion document →
      ¬ PortableRejects parse file ∧
        ∀ members, document = .object members → MonitorRejects document := by
  constructor
  · exact samePick_iff_aligned hcount hflat
  intro file document hsize hparse hversion
  refine ⟨not_portableRejects hsize hparse, ?_⟩
  rintro members rfl
  exact monitorRejects_of_unsupported hversion

/-- A readable entry of a given name. -/
def namedEntry (name : String) : ZipEntry where
  name := name
  refused := none
  content := .ok []
  size := 0
  compressedSize := 0

/-- `enclosed_name` refuses a NUL. -/
def withoutNul (name : String) : Bool := !name.toList.contains '\x00'

theorem plain_archive_read_alike :
    SamePick withoutNul (some ['a']) [namedEntry "log.txt", namedEntry "a.json"] := by
  apply (loaders_agree_iff withoutNul (some ['a']) [namedEntry "log.txt", namedEntry "a.json"]
    (by decide) (by decide) (fun _ => .ok .null)).1.mpr
  refine { refused := ?_, preferred := ?_, fallback := ?_ }
  · intro hrefused
    exact absurd hrefused (by decide)
  · intro _ m hm
    left
    rw [← hm]
    decide
  · intro _ hnone
    exact absurd hnone (by decide)

/-- A parser that knows the empty object. -/
def parseEmpty : JsonParser := fun file =>
  if file = [123, 125] then .ok (.object []) else .error "expected value"

/-- An archive whose name differs from its report in case, and a document
without a version. -/
theorem archive_and_version_told_apart :
    (portablePick withoutNul (some "Report".toList)
        [namedEntry "other.json", namedEntry "report.json"] = .ok 0 ∧
      monitorPick (some "Report".toList) [namedEntry "other.json", namedEntry "report.json"] =
        .ok 1) ∧
    parseEmpty [123, 125] = .ok (.object []) ∧ ¬ SupportedVersion (.object []) ∧
      ¬ PortableRejects parseEmpty [123, 125] ∧ MonitorRejects (.object []) := by
  have hparse : parseEmpty [123, 125] = .ok (.object []) := rfl
  refine ⟨⟨by decide +kernel, by decide +kernel⟩, hparse, ?_, ?_, ?_⟩
  · intro hversion
    cases hversion
  · exact not_portableRejects (by decide) hparse
  · exact ⟨_, rfl⟩

end CrashMonitor.Report
