import Mathlib.Data.List.Basic
import Mathlib.Data.String.Basic

/-!
# Names in the report roots

What the monitor calls the directories it keeps in a report root: a hidden
staging directory while a report is assembled (`pipeline/artifact.rs`), the
report id once it is published, a tombstone while retention deletes it
(`postprocessors/retention.rs`), and a quarantine name when a publication
could not be verified (`utils/paths.rs`). The four never coincide.
-/

namespace CrashMonitor.Store

open List

/-! ## Report ids -/

/-- `byte.is_ascii_hexdigit()`. -/
def isHexDigit (c : Char) : Bool :=
  ('0' ≤ c && c ≤ '9') || ('a' ≤ c && c ≤ 'f') || ('A' ≤ c && c ≤ 'F')

/-- `is_report_id`: 32 hexadecimal digits. -/
def isReportId (name : String) : Bool := name.toList.length = 32 && name.toList.all isHexDigit

/-- `ReportId`, which `ReportId::parse` and `ReportId::new` only build from
such a name. -/
structure ReportId where
  text : String
  valid : isReportId text = true
  deriving DecidableEq

/-- `ReportId::parse`. -/
def ReportId.parse (value : String) : Option ReportId :=
  if h : isReportId value = true then some ⟨value, h⟩ else none

/-! ## Derived names -/

def manifestFileName : String := "manifest.json"

/-- The name of `ReportContext::staging_dir`. -/
def stagingName (id : ReportId) : String := ".report-" ++ id.text ++ ".pending"

/-- `strip_prefix`. -/
def stripStart (start name : String) : Option String :=
  if start.toList.isPrefixOf name.toList then
    some (String.ofList (name.toList.drop start.toList.length))
  else none

/-- `strip_suffix`. -/
def stripEnd (tail name : String) : Option String :=
  if tail.toList.isSuffixOf name.toList then
    some (String.ofList (name.toList.take (name.toList.length - tail.toList.length)))
  else none

variable (name : String)

/-- `staging_report_id`. -/
def stagingReportId : Option ReportId := do
  let rest ← stripStart ".report-" name
  let id ← stripEnd ".pending" rest
  ReportId.parse id

def tombstoneName (reportId nonce : String) : String :=
  ".retention-" ++ reportId ++ "." ++ nonce ++ ".deleting"

/-- `split_once('.')`. -/
def splitOnce (value : String) : Option (String × String) :=
  match value.toList.span (· ≠ '.') with
  | (before, _ :: after) => some (String.ofList before, String.ofList after)
  | (_, []) => none

/-- `is_retention_tombstone_name`. -/
def isRetentionTombstoneName : Bool :=
  match stripStart ".retention-" name >>= stripEnd ".deleting" >>= splitOnce with
  | some (reportId, nonce) => !nonce.toList.contains '.' && isReportId reportId && isReportId nonce
  | none => false

/-- `private_publish_pending_name`. -/
def quarantineName (nonce : String) : String := ".publish-" ++ nonce ++ ".pending"

/-! ## Artifact names -/

/-- `Path::new(name).components()` of a relative path: empty and
current-directory components are dropped. -/
def components : List String :=
  ((name.toList.splitOn '/').filter fun c => c ≠ [] ∧ c ≠ ['.']).map String.ofList

/-- `Path::new(name).components().count()`; a leading slash is a component of
its own. -/
def componentCount : Nat :=
  (if name.toList.head? = some '/' then 1 else 0) + (components name).length

/-- `validate_artifact_name` of `pipeline/artifact.rs`. -/
def validateArtifactName : Bool :=
  !(name.isEmpty || name = manifestFileName || name.toList.head? = some '.' ||
    componentCount name ≠ 1)

/-- `validate_artifact_name` of `postprocessors/retention.rs`, which also
wants the component to be a normal one. -/
def validateRetainedName : Bool := validateArtifactName name && name.toList.head? ≠ some '/'

/-- `validate_directory_component`. -/
def validateDirectoryComponent : Bool :=
  !(name.isEmpty || name.toList.head? = some '.' || componentCount name ≠ 1 ||
    name.toList.head? = some '/')

/-- A name a directory can hold: to the operating system a slash ends a
component. -/
def isFlat : Bool := !name.toList.contains '/'

/-! ## They never coincide -/

section

variable (id : ReportId) {name : String} (nonce : String)

@[simp] theorem toList_stagingName :
    (stagingName id).toList = ".report-".toList ++ (id.text.toList ++ ".pending".toList) := by
  simp [stagingName, String.toList_append]

@[simp] theorem toList_tombstoneName (id nonce : String) :
    (tombstoneName id nonce).toList =
      ".retention-".toList ++ (id.toList ++ (".".toList ++ (nonce.toList ++
        ".deleting".toList))) := by
  simp [tombstoneName, String.toList_append]

@[simp] theorem toList_quarantineName :
    (quarantineName nonce).toList = ".publish-".toList ++ (nonce.toList ++ ".pending".toList) := by
  simp [quarantineName, String.toList_append]

@[simp] theorem ReportId.parse_text : ReportId.parse id.text = some id := by
  unfold ReportId.parse
  rw [dif_pos id.valid]

theorem stripStart_eq {start name rest} (h : stripStart start name = some rest) :
    name.toList = start.toList ++ rest.toList := by
  unfold stripStart at h
  split at h
  case isFalse => cases h
  next hstart =>
  cases h
  obtain ⟨tail, htail⟩ := isPrefixOf_iff_prefix.mp hstart
  rw [← htail, drop_left, String.toList_ofList]

theorem stripEnd_eq {tail name rest} (h : stripEnd tail name = some rest) :
    name.toList = rest.toList ++ tail.toList := by
  unfold stripEnd at h
  split at h
  case isFalse => cases h
  next hend =>
  cases h
  obtain ⟨before, hbefore⟩ := isSuffixOf_iff_suffix.mp hend
  rw [← hbefore, length_append, Nat.add_sub_cancel, take_left, String.toList_ofList]

/-- The only staging name with a given id. -/
theorem eq_stagingName {id} (h : stagingReportId name = some id) : name = stagingName id := by
  unfold stagingReportId at h
  simp only [Option.bind_eq_bind, Option.bind_eq_some_iff] at h
  obtain ⟨rest, hstart, text, hend, hparse⟩ := h
  unfold ReportId.parse at hparse
  split at hparse
  case isFalse => cases hparse
  cases hparse
  apply String.toList_inj.mp
  rw [toList_stagingName, stripStart_eq hstart, stripEnd_eq hend]

/-- A visible name does not start with a dot. -/
theorem ReportId.head_ne_dot : id.text.toList.head? ≠ some '.' := by
  have h := id.valid
  unfold isReportId at h
  rw [Bool.and_eq_true, all_eq_true] at h
  intro hhead
  have hmem : '.' ∈ id.text.toList := mem_of_mem_head? hhead
  exact absurd (h.2 '.' hmem) (by decide)

theorem text_ne_quarantineName : id.text ≠ quarantineName nonce := by
  intro h
  apply id.head_ne_dot
  rw [h]
  simp

/-- A tombstone starts with its own mark. -/
theorem isRetentionTombstoneName_start (h : isRetentionTombstoneName name = true) :
    ".retention-".toList <+: name.toList := by
  unfold isRetentionTombstoneName at h
  cases hstart : stripStart ".retention-" name with
  | none => simp [hstart] at h
  | some rest => exact ⟨_, (stripStart_eq hstart).symm⟩

end

end CrashMonitor.Store
