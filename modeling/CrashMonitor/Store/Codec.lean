import CrashMonitor.Store.Manifest
import CrashMonitor.Lib.Serial

/-!
# A codec of manifests

The development takes the JSON form of a manifest as any `Codec`. This one is
a plain field-by-field format: it shows that the assumption can be met, and
runs of the store can be evaluated with it.
-/

namespace CrashMonitor.Store

open Lib EventLoop

def reportTypes : List ReportType := [.crash, .anr, .snapshot, .exitFailure, .signalFailure, .oom]

def artifactKinds : List ArtifactKind :=
  [.report, .threadRaw, .breadcrumbsRaw, .contextRaw, .screenshotRgba,
    .screenshotPng, .attachment, .archive]

def reportTypeFormat : Serial ReportType :=
  .view (fun reportType => reportTypes.idxOf reportType) (fun n => reportTypes[n]?)
    (by intro reportType; cases reportType <;> rfl) .natural

def artifactKindFormat : Serial ArtifactKind :=
  .view (fun kind => artifactKinds.idxOf kind) (fun n => artifactKinds[n]?)
    (by intro kind; cases kind <;> rfl) .natural

def reportIdFormat : Serial ReportId :=
  .view (fun id => id.text) ReportId.parse ReportId.parse_text .text

def ManifestDestination.directory : ManifestDestination → Option String
  | .outputRoot => none
  | .sibling directory => some directory

def destinationFormat : Serial ManifestDestination := .view ManifestDestination.directory
    (fun directory => some (directory.elim .outputRoot .sibling))
    (by intro destination; cases destination <;> rfl) (.optional .text)

def artifactFormat : Serial ManifestArtifact :=
  .view (fun artifact => (artifact.path, artifact.kind, artifact.size))
    (fun fields => some ⟨fields.1, fields.2.1, fields.2.2⟩) (fun _ => rfl)
    (.pair .text (.pair artifactKindFormat .natural))

def manifestFormat : Serial ReportManifest := .view
    (fun m => ((m.schemaVersion, m.reportId, m.reportType, m.pid),
      (m.process, m.committedAt, m.destination), m.artifacts, m.finalDiagnostics))
    (fun f => some ⟨f.1.1, f.1.2.1, f.1.2.2.1, f.1.2.2.2, f.2.1.1, f.2.1.2.1,
      f.2.1.2.2, f.2.2.1, f.2.2.2⟩) (fun _ => rfl)
    (.pair (.pair .natural (.pair reportIdFormat (.pair reportTypeFormat .natural)))
      (.pair (.pair .text (.pair .text destinationFormat))
        (.pair (.list artifactFormat) (.optional .json))))

def plainCodec : Codec where
  encode := manifestFormat.put
  decode := manifestFormat.read
  decode_encode := manifestFormat.read_put

/-- The manifest of a report without artifacts. -/
def ReportManifest.plain (id : ReportId) : ReportManifest where
  schemaVersion := manifestSchemaVersion
  reportId := id
  reportType := .crash
  pid := 7
  process := "app"
  committedAt := ""
  destination := .outputRoot
  artifacts := []
  finalDiagnostics := none

end CrashMonitor.Store
