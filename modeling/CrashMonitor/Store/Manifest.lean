import CrashMonitor.Store.Names
import CrashMonitor.Lib.SortedMap
import CrashMonitor.Lib.Json
import CrashMonitor.EventLoop.Machine

/-!
# Report manifests

The commit record of a report (`pipeline/artifact.rs`): the artifacts with
their sizes, the identity, and where the report is to be published. `Complete`
says what a reader of a visible report directory may rely on.
-/

namespace CrashMonitor.Store

open Lib EventLoop List

abbrev Bytes := List UInt8

/-- A directory path by its components. -/
abbrev Path := List String

def Path.display (path : Path) : String := String.join (path.map ("/" ++ ·))

/-! ## The record -/

inductive ArtifactKind where
  | report
  | threadRaw
  | breadcrumbsRaw
  | contextRaw
  | screenshotRgba
  | screenshotPng
  | attachment
  | archive
  deriving DecidableEq, Repr

structure ManifestArtifact where
  path : String
  kind : ArtifactKind
  size : Nat
  deriving DecidableEq, Repr

inductive ManifestDestination where
  | outputRoot
  | sibling (directory : String)
  deriving DecidableEq, Repr

structure ReportManifest where
  schemaVersion : Nat
  reportId : ReportId
  reportType : ReportType
  pid : Nat
  process : String
  committedAt : String
  destination : ManifestDestination
  artifacts : List ManifestArtifact
  finalDiagnostics : Option Json

def manifestSchemaVersion : Nat := 1
def maxManifestBytes : Nat := 1024 * 1024

/-- `serde_json` on manifests: what is written is read back. -/
structure Codec where
  encode : ReportManifest → Bytes
  decode : Bytes → Option ReportManifest
  decode_encode : ∀ manifest, decode (encode manifest) = some manifest

/-- The exact artifact registry of a transaction, a `BTreeMap`. -/
abbrev Registry := SortedMap String ArtifactKind

/-- `manifest_registry`, from the artifacts read so far. -/
def manifestRegistryFrom : List ManifestArtifact → Registry → Except String Registry
  | [], registered => .ok registered
  | artifact :: rest, registered =>
    if !validateArtifactName artifact.path then
      .error s!"invalid report artifact name: {artifact.path}"
    else if artifact.path ∈ registered.keys then
      .error s!"duplicate manifest artifact: {artifact.path}"
    else manifestRegistryFrom rest (registered.insert artifact.path artifact.kind)

def manifestRegistry (manifest : ReportManifest) : Except String Registry :=
  manifestRegistryFrom manifest.artifacts .empty

/-! ## Destinations -/

/-- `destination_policy`. -/
def destinationPolicy (outputRoot destinationRoot : Path) : Except String ManifestDestination :=
  if destinationRoot = outputRoot then .ok .outputRoot
  else if outputRoot = [] then .error "report output root has no parent"
  else match destinationRoot.getLast? with
    | none =>
      .error (s!"report destination '{destinationRoot.display}' is not a " ++
        s!"sibling of output root '{outputRoot.display}'")
    | some directory =>
      if destinationRoot.dropLast ≠ outputRoot.dropLast then
        .error (s!"report destination '{destinationRoot.display}' is not a " ++
          s!"sibling of output root '{outputRoot.display}'")
      else if !validateDirectoryComponent directory then
        .error s!"invalid report destination component: {directory}"
      else .ok (.sibling directory)

/-- `destination_from_policy`. -/
def destinationFromPolicy (outputRoot : Path) : ManifestDestination → Except String Path
  | .outputRoot => .ok outputRoot
  | .sibling directory =>
    if !validateDirectoryComponent directory then
      .error s!"invalid report destination component: {directory}"
    else if outputRoot = [] then .error "report output root has no parent"
    else .ok (outputRoot.dropLast ++ components directory)

/-! ## Registries read from manifests -/

theorem manifestRegistryFrom_ok {artifacts registered result}
    (h : manifestRegistryFrom artifacts registered = .ok result) :
    (∀ name, name ∈ result.keys ↔
      name ∈ artifacts.map (·.path) ∨ name ∈ registered.keys) ∧
    (artifacts.map (·.path)).Nodup ∧ (∀ name ∈ artifacts.map (·.path), name ∉ registered.keys) := by
  induction artifacts generalizing registered with
  | nil =>
    cases h
    simp
  | cons artifact rest ih =>
    unfold manifestRegistryFrom at h
    split_ifs at h with hvalid hdup
    obtain ⟨hkeys, hnodup, hfresh⟩ := ih h
    refine ⟨?_, ?_, ?_⟩
    · intro name
      rw [hkeys, SortedMap.mem_keys_insert, map_cons, mem_cons]
      tauto
    · apply nodup_cons.mpr
      refine ⟨?_, hnodup⟩
      intro hmem
      exact hfresh _ hmem ((SortedMap.mem_keys_insert ..).mpr (.inl rfl))
    · intro name hname
      rw [map_cons, mem_cons] at hname
      rcases hname with rfl | hname
      · exact hdup
      · intro hmem
        exact hfresh name hname ((SortedMap.mem_keys_insert ..).mpr (.inr hmem))

variable {manifest : ReportManifest}

theorem manifestRegistry_ok {registered} (h : manifestRegistry manifest = .ok registered) :
    (∀ name, name ∈ registered.keys ↔ name ∈ manifest.artifacts.map (·.path)) ∧
    (manifest.artifacts.map (·.path)).Nodup := by
  obtain ⟨hkeys, hnodup, -⟩ := manifestRegistryFrom_ok h
  refine ⟨?_, hnodup⟩
  intro name
  rw [hkeys]
  simp [SortedMap.empty, SortedMap.keys]

/-! ## What a visible report holds -/

/-- The regular files of a directory. -/
abbrev Content := String → Option Bytes

/-- The recorded size of an artifact. -/
def ReportManifest.sizeOf (manifest : ReportManifest) (name : String) : Option Nat :=
  (manifest.artifacts.find? fun artifact => artifact.path = name).map (·.size)

/-- The directory holds a manifest of the supported version with this id,
and besides it exactly the artifacts the manifest lists, in their recorded
sizes. -/
def Complete (codec : Codec) (id : ReportId) (content : Content) : Prop :=
  ∃ bytes manifest, content manifestFileName = some bytes ∧
    codec.decode bytes = some manifest ∧
    manifest.schemaVersion = manifestSchemaVersion ∧ manifest.reportId = id ∧
    (manifest.artifacts.map (·.path)).Nodup ∧ ∀ name, name ≠ manifestFileName →
      (content name).map List.length = manifest.sizeOf name

theorem ReportManifest.sizeOf_of_mem (hnodup : (manifest.artifacts.map (·.path)).Nodup)
    {artifact} (h : artifact ∈ manifest.artifacts) :
    manifest.sizeOf artifact.path = some artifact.size := by
  unfold sizeOf
  generalize manifest.artifacts = artifacts at hnodup h
  induction artifacts with
  | nil => cases h
  | cons first rest ih =>
    rw [map_cons, nodup_cons] at hnodup
    rw [List.find?_cons]
    rcases mem_cons.mp h with rfl | hrest
    · simp
    have hne : first.path ≠ artifact.path := by
      intro heq
      exact hnodup.1 (heq ▸ mem_map_of_mem hrest)
    simp only [hne, decide_false]
    exact ih hnodup.2 hrest

theorem ReportManifest.sizeOf_of_not_mem {name}
    (h : name ∉ manifest.artifacts.map (·.path)) : manifest.sizeOf name = none := by
  unfold sizeOf
  rw [Option.map_eq_none_iff, List.find?_eq_none]
  intro artifact hmem hpath
  exact h (mem_map.mpr ⟨artifact, hmem, by simpa using hpath⟩)

/-- A validated directory is complete. -/
theorem Complete.intro {codec content bytes id}
    (hmanifest : content manifestFileName = some bytes)
    (hdecode : codec.decode bytes = some manifest)
    (hversion : manifest.schemaVersion = manifestSchemaVersion)
    (hid : manifest.reportId = id) (hnodup : (manifest.artifacts.map (·.path)).Nodup)
    (hnames : ∀ name, name ≠ manifestFileName → (content name).isSome →
      name ∈ manifest.artifacts.map (·.path)) (hsizes : ∀ artifact ∈ manifest.artifacts, ∃ data,
      content artifact.path = some data ∧ data.length = artifact.size) :
    Complete codec id content := by
  refine ⟨bytes, manifest, hmanifest, hdecode, hversion, hid, hnodup, ?_⟩
  intro name hne
  by_cases hmem : name ∈ manifest.artifacts.map (·.path)
  · obtain ⟨artifact, hartifact, rfl⟩ := mem_map.mp hmem
    obtain ⟨data, hdata, hlength⟩ := hsizes artifact hartifact
    rw [hdata, ReportManifest.sizeOf_of_mem hnodup hartifact, Option.map_some, hlength]
  · rw [ReportManifest.sizeOf_of_not_mem hmem, Option.map_eq_none_iff]
    by_contra hsome
    exact hmem (hnames name hne (Option.isSome_iff_ne_none.mpr hsome))

end CrashMonitor.Store
