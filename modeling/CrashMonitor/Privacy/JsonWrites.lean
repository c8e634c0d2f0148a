import CrashMonitor.Report.Diagnostics
import CrashMonitor.Staging.References

/-!
# The JSON documents of a committed report

`write_report` masks the whole report before it is written. `PNGConverter`
reads it back and writes it again with the names of the images, the commit adds
a manifest, and after the commit the final diagnostics are added to it: all of
this is written as it is. The documents are masked exactly if masking leaves
those texts alone.
-/

namespace CrashMonitor.Privacy

open Lib Lib.Decode Interleave Store Report Staging Json List

/-! ## Manifests -/

/-- The name serde gives a kind. -/
def kindName : ArtifactKind → String
  | .report => "report"
  | .threadRaw => "thread_raw"
  | .breadcrumbsRaw => "breadcrumbs_raw"
  | .contextRaw => "context_raw"
  | .screenshotRgba => "screenshot_rgba"
  | .screenshotPng => "screenshot_png"
  | .attachment => "attachment"
  | .archive => "archive"

def artifactJson (artifact : ManifestArtifact) : Json :=
  .object [("path", .string artifact.path), ("kind", .string (kindName artifact.kind)),
    ("size", .number artifact.size)]

def destinationJson : ManifestDestination → Json
  | .outputRoot => .object [("kind", .string "output_root")]
  | .sibling directory => .object [("kind", .string "sibling"), ("directory", .string directory)]

def manifestJson (manifest : ReportManifest) : Json :=
  .object ([("schema_version", .number manifest.schemaVersion),
    ("report_id", .string manifest.reportId.text),
    ("report_type", .string manifest.reportType.asStr), ("pid", .number manifest.pid),
    ("process", .string manifest.process), ("committed_at", .string manifest.committedAt),
    ("destination", destinationJson manifest.destination),
    ("artifacts", .array (manifest.artifacts.map artifactJson))] ++
    manifest.finalDiagnostics.toList.map fun diagnostics => ("final_diagnostics", diagnostics))

/-- What `build_manifest` records of a directory. -/
def recorded (header : ReportManifest) (s : Folder) : ReportManifest := { header with
    artifacts := s.registry.entries.map fun artifact =>
      ⟨artifact.1, artifact.2, ((s.files artifact.1).map length).getD 0⟩
    finalDiagnostics := none }

/-- `persist_final_diagnostics`: without a record nothing is added, and a record
that fails a check or cannot replace the old one leaves the manifest as it is. -/
def persistFinalDiagnostics (persisted : Bool) (manifest : ReportManifest)
    (pipelineDurationMs : Nat) (plugins : List PluginDiagnostic) : ReportManifest :=
  match buildDiagnosticsJson pipelineDurationMs plugins with
  | none => manifest
  | some diagnostics =>
    if persisted then { manifest with finalDiagnostics := some diagnostics } else manifest

/-! ## What is written as it is -/

def destinationTexts : ManifestDestination → List String
  | .outputRoot => ["output_root"]
  | .sibling directory => ["sibling", directory]

/-- The texts of a manifest without diagnostics. -/
def manifestTexts (manifest : ReportManifest) : List String :=
  [manifest.reportId.text, manifest.reportType.asStr, manifest.process, manifest.committedAt] ++
    destinationTexts manifest.destination ++
    manifest.artifacts.flatMap fun artifact => [artifact.path, kindName artifact.kind]

/-- The last record of each name. -/
def lastRecords : List PluginDiagnostic → List PluginDiagnostic
  | [] => []
  | d :: rest => if d.name ∈ rest.map (·.name) then lastRecords rest else d :: lastRecords rest

def recordTexts (d : PluginDiagnostic) : List String :=
  statusName d.status :: (statusText d.status).toList.map Prod.snd ++ d.reportId.toList

/-- An entry of the report, with the name and size of the image it was converted
to. -/
abbrev ReportEntry := Json × Option (String × Nat)

def ReportEntry.json : ReportEntry → Json
  | (attachment, none) => attachment
  | (attachment, some image) => pngAttachment image.1 image.2 attachment

/-- What is written of a report and its manifest without masking. -/
def exposed (manifest : ReportManifest) (persisted : Bool) (plugins : List PluginDiagnostic)
    (entries : List ReportEntry) : List String :=
  manifestTexts manifest ++ (if persisted then (lastRecords plugins).flatMap recordTexts else []) ++
    if entries.any (·.2.isSome) then ["png"] else []

variable {sanitizer : Sanitizer}

/-! ## The manifest -/

theorem texts_manifestJson (manifest : ReportManifest) : (manifestJson manifest).texts =
    manifestTexts manifest ++ manifest.finalDiagnostics.toList.flatMap texts := by
  have hartifact : ∀ artifact : ManifestArtifact,
      (artifactJson artifact).texts = [artifact.path, kindName artifact.kind] := fun _ => rfl
  have hdestination : (destinationJson manifest.destination).texts =
      destinationTexts manifest.destination := by
    cases manifest.destination <;> rfl
  simp [manifestJson, manifestTexts, texts, textsOfMembers_eq, textsOfValues_eq, flatMap_map,
    hartifact, hdestination]

theorem texts_pluginEntry (d : PluginDiagnostic) : (pluginEntry d).texts = recordTexts d := by
  obtain ⟨name, status, ms, reportId, started, finished⟩ := d
  cases status <;> cases reportId <;> rfl

theorem lastPairs_pluginPairs (plugins : List PluginDiagnostic) :
    lastPairs (pluginPairs plugins) = pluginPairs (lastRecords plugins) := by
  induction plugins with
  | nil => rfl
  | cons d plugins ih =>
    have hnames : (pluginPairs plugins).map Prod.fst = plugins.map (·.name) := by
      simp [pluginPairs, Function.comp_def]
    rw [pluginPairs, map_cons, ← pluginPairs, lastPairs, lastRecords, hnames]
    split
    · exact ih
    · rw [ih]
      rfl

/-- The diagnostics have the texts of the last record of each name. -/
theorem mem_texts_diagnostics {pipelineDurationMs plugins doc text}
    (h : buildDiagnosticsJson pipelineDurationMs plugins = some doc) :
    text ∈ doc.texts ↔ text ∈ (lastRecords plugins).flatMap recordTexts := by
  unfold buildDiagnosticsJson at h
  split at h
  · cases h
  cases h
  have hperm := (collectMembers_perm (pluginPairs plugins)).flatMap_right (·.2.texts)
  rw [lastPairs_pluginPairs] at hperm
  simp only [texts, textsOfMembers_eq, flatMap_cons, flatMap_nil, append_nil, nil_append]
  rw [hperm.mem_iff, pluginPairs, flatMap_map]
  simp only [texts_pluginEntry]

/-- The manifest is its own masked form exactly if all of its texts are. -/
theorem manifest_masked_iff {manifest final : ReportManifest} {persisted pipelineDurationMs plugins}
    (hfresh : manifest.finalDiagnostics = none)
    (hfinal : final = persistFinalDiagnostics persisted manifest pipelineDurationMs plugins) :
    manifestJson final = sanitizer.sanitizeJsonValue (manifestJson final) ↔
      ∀ text ∈ manifestTexts manifest ++
        (if persisted then (lastRecords plugins).flatMap recordTexts else []),
        sanitizer.sanitizeStr text = text := by
  subst hfinal
  have htexts : ∀ text, text ∈ (manifestJson
      (persistFinalDiagnostics persisted manifest pipelineDurationMs plugins)).texts ↔
      text ∈ manifestTexts manifest ++
      (if persisted then (lastRecords plugins).flatMap recordTexts else []) := by
    intro text
    rw [texts_manifestJson, mem_append, mem_append]
    cases hdoc : buildDiagnosticsJson pipelineDurationMs plugins with
    | none =>
      have hempty : plugins = [] := by simpa [buildDiagnosticsJson] using hdoc
      subst hempty
      simp [persistFinalDiagnostics, hdoc, hfresh, lastRecords]
    | some doc =>
      cases persisted with
      | false => simp [persistFinalDiagnostics, hdoc, hfresh]
      | true =>
        simp only [persistFinalDiagnostics, hdoc, if_true, Option.toList_some,
          flatMap_singleton, mem_texts_diagnostics hdoc]
        rfl
  rw [Sanitizer.sanitizeJsonValue, mapTexts_eq_self_iff]
  simp only [htexts]

/-! ## The report -/

theorem document_sanitizeReport (report : StagedReport) :
    (sanitizeReport sanitizer report).document =
      sanitizer.sanitizeJsonValue report.document := by
  simp [StagedReport.document, sanitizeReport, Sanitizer.sanitizeJsonValue, Json.mapTexts,
    mapMembers_eq_map, mapValues_eq_map]

theorem member?_document (key : String) (report : StagedReport) : member? key report.document =
    if key = "attachments" then some (.array report.attachments)
    else member? key (.object report.others) := by
  rw [StagedReport.document, member?, reverse_append, reverse_singleton, singleton_append]
  by_cases h : key = "attachments"
  · simp [h]
  · rw [lookup_cons, beq_eq_false_iff_ne.mpr h, if_neg h]
    rfl

/-- Other entries make no difference to the other members. -/
theorem alike_document_iff {written content : StagedReport} {attachments entries : List Json}
    (h : Alike (StagedReport.mk written.others attachments).document
      (StagedReport.mk content.others entries).document) :
    Alike written.document content.document ↔
      Forall₂ Alike written.attachments content.attachments := by
  constructor
  · intro halike
    have hmember := halike.member "attachments"
    rw [member?_document, member?_document, if_pos rfl, if_pos rfl] at hmember
    cases hmember with
    | some hvalues => exact hvalues.values
  · intro hvalues
    refine .of_objects rfl rfl fun key => ?_
    have hmember := h.member key
    rw [member?_document, member?_document] at hmember ⊢
    split_ifs at hmember ⊢
    · exact .some (.of_values hvalues)
    · exact hmember

/-- An entry as it was written: masked, and then perhaps converted. -/
inductive WrittenEntry (sanitizer : Sanitizer) : Json → ReportEntry → Prop
  | kept {written attachment} (h : Alike written (sanitizer.sanitizeJsonValue attachment)) :
      WrittenEntry sanitizer written (attachment, none)
  | converted {read attachment file size}
      (h : Alike read (sanitizer.sanitizeJsonValue attachment))
      (hformat : textOf "format" read = some "rgba") :
      WrittenEntry sanitizer (pngAttachment file size read) (attachment, some (file, size))

theorem WrittenEntry.masked_iff {written entry} (h : WrittenEntry sanitizer written entry) :
    Alike written (sanitizer.sanitizeJsonValue entry.json) ↔ ∀ image ∈ entry.2,
      sanitizer.sanitizeStr image.1 = image.1 ∧ sanitizer.sanitizeStr "png" = "png" := by
  cases h with
  | kept h => simpa [ReportEntry.json] using h
  | @converted read attachment file size h hformat =>
    cases read with
    | object members =>
      cases attachment with
      | object others =>
        simp only [ReportEntry.json, Option.mem_def, Option.some.injEq, forall_eq']
        constructor
        · intro halike
          have hfile := textOf_of_alike halike "file"
          have hpng := textOf_of_alike halike "format"
          simp only [textOf, Sanitizer.sanitizeJsonValue, member?_mapTexts,
            member?_pngAttachment] at hfile hpng
          exact ⟨(Option.some.inj hfile).symm, (Option.some.inj hpng).symm⟩
        · rintro ⟨hfile, hpng⟩
          refine .of_objects rfl rfl fun key => ?_
          have hmember := h.member key
          rw [Sanitizer.sanitizeJsonValue, member?_mapTexts] at hmember
          rw [Sanitizer.sanitizeJsonValue, member?_mapTexts, member?_pngAttachment,
            member?_pngAttachment]
          split_ifs
          · exact .none
          · exact .some (.refl _)
          · show Option.Rel Alike _ (some (.string (sanitizer.sanitizeStr "png")))
            rw [hpng]
            exact .some (.refl _)
          · show Option.Rel Alike _ (some (.string (sanitizer.sanitizeStr file)))
            rw [hfile]
            exact .some (.refl _)
          · exact hmember
      | _ => cases h []
    | _ => cases hformat

theorem masked_iff_of_written {written entries}
    (h : Forall₂ (WrittenEntry sanitizer) written entries) :
    Forall₂ Alike written (entries.map fun entry => sanitizer.sanitizeJsonValue entry.json) ↔
      ∀ entry ∈ entries, ∀ image ∈ entry.2,
        sanitizer.sanitizeStr image.1 = image.1 ∧ sanitizer.sanitizeStr "png" = "png" := by
  induction h with
  | nil => simp
  | cons hfirst _ ih =>
    rw [map_cons, forall₂_cons, ih, forall_mem_cons]
    exact and_congr_left fun _ => hfirst.masked_iff

/-- A name of a dump ends in `a`, one of an image in `g`. -/
theorem image_last {encodePng attachment c png} (h : Image encodePng attachment c png) :
    c.path.toList.getLast? = some 'a' ∧ c.pngPath.toList.getLast? = some 'g' := by
  obtain ⟨stem, hstem, hpng⟩ := h.names
  unfold stripRgba at hstem
  split at hstem
  · next hsuffix =>
    obtain ⟨before, hbefore⟩ := isSuffixOf_iff_suffix.mp hsuffix
    rw [← hbefore, hpng]
    simp
  · cases hstem

theorem forall₂_snoc_left {α β : Type} {R : α → β → Prop} {as a bs}
    (h : Forall₂ R (as ++ [a]) bs) : ∃ bs' b, bs = bs' ++ [b] ∧ Forall₂ R as bs' ∧ R a b := by
  have hreverse := forall₂_reverse_iff.mpr h
  rw [reverse_append, reverse_singleton, singleton_append, forall₂_cons_left_iff] at hreverse
  obtain ⟨b, bs', hlast, hinit, hbs⟩ := hreverse
  refine ⟨bs'.reverse, b, ?_, ?_, hlast⟩
  · rw [← reverse_reverse bs, hbs, reverse_cons]
  · exact forall₂_reverse_iff.mp (by rwa [reverse_reverse])

/-- What stands in a converted report: every image is registered. -/
structure Shows (sanitizer : Sanitizer) (s : Folder) (contents written : List Json)
    (entries : List ReportEntry) : Prop where
  contents : entries.map Prod.fst = contents
  written : Forall₂ (WrittenEntry sanitizer) written entries
  images : ∀ entry ∈ entries, ∀ image ∈ entry.2, image.1.toList.getLast? = some 'g' ∧
    image.1 ∈ s.registry.keys

theorem shows_of_converts {encodePng s seen done converted s' contents}
    (h : Converts encodePng s seen done converted s')
    (hseen : Forall₂ (fun written content => Alike written (sanitizer.sanitizeJsonValue content))
      seen contents) : (∃ entries, Shows sanitizer s' contents done entries) ∧
      ∀ c ∈ converted, c.path.toList.getLast? = some 'a' := by
  induction h generalizing contents with
  | start =>
    cases hseen
    exact ⟨⟨[], rfl, .nil, by simp⟩, by simp⟩
  | kept _ hs ih =>
    obtain ⟨files, read, rfl, -⟩ := hs
    obtain ⟨contents, content, rfl, hcontents, halike⟩ := forall₂_snoc_left hseen
    obtain ⟨⟨entries, rfl, hwritten, himages⟩, hpaths⟩ := ih hcontents
    refine ⟨⟨entries ++ [(content, none)], by simp, rel_append hwritten (.cons (.kept halike) .nil),
      ?_⟩, hpaths⟩
    exact forall_mem_append.mpr ⟨himages, by simp⟩
  | @image seen done converted attachment c png s' paths _ himage hfree ih =>
    obtain ⟨contents, content, rfl, hcontents, halike⟩ := forall₂_snoc_left hseen
    obtain ⟨⟨entries, rfl, hwritten, himages⟩, hpaths⟩ := ih hcontents
    refine ⟨⟨entries ++ [(content, some (c.pngPath, png.length))], by simp,
      rel_append hwritten (.cons (.converted halike himage.format) .nil), ?_⟩, ?_⟩
    · refine forall_mem_append.mpr ⟨fun entry hentry image hmem => ?_, ?_⟩
      · obtain ⟨hlast, hkey⟩ := himages entry hentry image hmem
        exact ⟨hlast, (SortedMap.mem_keys_insert ..).mpr (.inr hkey)⟩
      · simp only [mem_singleton, forall_eq, Option.mem_def, Option.some.injEq, forall_eq']
        exact ⟨(image_last himage).2, (SortedMap.mem_keys_insert ..).mpr (.inl rfl)⟩
    · exact forall_mem_append.mpr ⟨hpaths, by simpa using (image_last himage).1⟩

/-- The report in the directory, and what it stands for: the report with some of
the screenshots, of which some are images now. -/
structure Stands (codec : ReportCodec) (sanitizer : Sanitizer) (report : StagedReport)
    (shots : List Screenshot) (s : Folder) (written : StagedReport)
    (entries : List ReportEntry) : Prop where
  file : s.files reportName = some (codec.encode written)
  shown : ∃ kept, kept ⊆ shots.zipIdx ∧ entries.map Prod.fst =
    report.attachments ++ kept.map fun shot => rgbaAttachment shot.2 shot.1
  others : ∃ found, Alike (StagedReport.mk written.others found).document
    (sanitizer.sanitizeJsonValue (StagedReport.mk report.others (entries.map Prod.fst)).document)
  attachments : Forall₂ (WrittenEntry sanitizer) written.attachments entries
  images : ∀ entry ∈ entries, ∀ image ∈ entry.2, image.1 ∈ s.registry.keys

section

variable {codec : ReportCodec} {encodePng : Bytes → Nat → Nat → Option Bytes} {reliable : Bool}
  {report : StagedReport} {shots : List Screenshot} {s₀ s s' : Folder}

theorem contents_unconverted (all : List Json) :
    (all.map fun entry => ((entry, none) : ReportEntry)).map Prod.fst = all := by
  simp [Function.comp_def]

/-- As `write_report` leaves it. -/
theorem stands_of_wrote (h : Wrote codec sanitizer report shots s₀ s)
    (hfree : s₀.files reportName = none) (hthere : s.files reportName ≠ none) :
    ∃ all, Stands codec sanitizer report shots s (sanitizeReport sanitizer ⟨report.others, all⟩)
      (all.map (·, none)) := by
  have hall : ∃ all, (∃ kept, kept ⊆ shots.zipIdx ∧
      all = report.attachments ++ kept.map fun shot => rgbaAttachment shot.2 shot.1) ∧
      s.files reportName = some (codec.encode (sanitizeReport sanitizer ⟨report.others, all⟩)) := by
    cases h with
    | @written u all _ hshoots _ _ =>
      exact ⟨all, hshoots.entries_eq, u.setFile_same reportName (some _)⟩
    | @failed u v all _ hshoots hs _ =>
      obtain ⟨data, hdata⟩ := Option.ne_none_iff_exists'.mp hthere
      rw [hdata, (hs.report (hshoots.report_free hfree) hdata).2]
      exact ⟨all, hshoots.entries_eq, rfl⟩
  obtain ⟨all, hkept, hfile⟩ := hall
  refine ⟨all, hfile, by rwa [contents_unconverted], ⟨all.map sanitizer.sanitizeJsonValue, ?_⟩,
    ?_, by simp⟩
  · rw [contents_unconverted, ← document_sanitizeReport]
    exact .refl _
  · exact forall₂_map_left_iff.mpr (forall₂_map_right_iff.mpr
      (forall₂_same.mpr fun _ _ => .kept (.refl _)))

/-- As `PNGConverter` leaves it. -/
theorem stands_of_rewrote (h : Rewrote codec encodePng s s') {all}
    (hstands : Stands codec sanitizer report shots s
      (sanitizeReport sanitizer ⟨report.others, all⟩) (all.map (·, none))) :
    ∃ written entries, Stands codec sanitizer report shots s' written entries := by
  cases h with
  | idle => exact ⟨_, _, hstands⟩
  | stopped hdata hc hs =>
    obtain ⟨files, read, rfl, hspares⟩ := hs
    refine ⟨_, _, hspares.kept (hc.kept_there.1 _ _ hstands.file), hstands.shown, hstands.others,
      hstands.attachments, by simp⟩
  | @replaced data found entries' converted u s' hdata hdecode hc hdrops =>
    cases hstands.file.symm.trans hdata
    have halike := codec.alike_attachments hdecode
    obtain ⟨⟨entries, hfst, hwritten, himages⟩, hpaths⟩ :=
      shows_of_converts hc (forall₂_map_right_iff.mp halike)
    have hout : ∀ {name : String}, name.toList.getLast? ≠ some 'a' →
        name ∉ converted.map (·.path) := by
      intro name hname hmem
      obtain ⟨c, hc, rfl⟩ := mem_map.mp hmem
      exact hname (hpaths c hc)
    refine ⟨⟨found.others, entries'⟩, entries, ?_, ?_, ⟨found.attachments, ?_⟩, hwritten, ?_⟩
    · exact (hdrops.files reportName (hout (by decide))).trans (u.setFile_same ..)
    · rw [hfst, ← contents_unconverted all]
      exact hstands.shown
    · rw [hfst, ← document_sanitizeReport]
      exact codec.decode_encode _ _ hdecode
    · intro entry hentry image hmem
      obtain ⟨hlast, hkey⟩ := himages entry hentry image hmem
      obtain ⟨⟨name, kind⟩, hkind, rfl⟩ := mem_map.mp hkey
      exact mem_map.mpr ⟨_, hdrops.registry _ (hout (by simp [hlast])) kind hkind, rfl⟩

theorem Stands.masked_iff {written entries}
    (h : Stands codec sanitizer report shots s written entries) :
    Alike written.document (sanitizer.sanitizeJsonValue
      (StagedReport.mk report.others (entries.map ReportEntry.json)).document) ↔
      ∀ entry ∈ entries, ∀ image ∈ entry.2,
        sanitizer.sanitizeStr image.1 = image.1 ∧ sanitizer.sanitizeStr "png" = "png" := by
  obtain ⟨found, halike⟩ := h.others
  rw [← document_sanitizeReport] at halike
  rw [← document_sanitizeReport, ← masked_iff_of_written h.attachments]
  exact (alike_document_iff halike).trans (by rw [sanitizeReport, map_map]; rfl)

/-- **JSON writes.** The report stands for what was collected, with the images
in the place of their screenshots. Both documents are masked exactly if masking
changes none of the texts that are written as they are. -/
theorem json_writes_sanitized_iff {r r'} (hfree : s₀.files reportName = none)
    (hwrite : Run (stagingStep reliable) (reportStage codec sanitizer report shots).run s₀ r s)
    (hconvert : Run (stagingStep reliable) (pngConverter encodePng codec).run s r' s')
    (hthere : s'.files reportName ≠ none) (header : ReportManifest) (persisted : Bool)
    (pipelineDurationMs : Nat) (plugins : List PluginDiagnostic) :
    ∃ written entries, Stands codec sanitizer report shots s' written entries ∧
      let final := persistFinalDiagnostics persisted (recorded header s') pipelineDurationMs plugins
      (Alike written.document (sanitizer.sanitizeJsonValue
          (StagedReport.mk report.others (entries.map ReportEntry.json)).document) ∧
        manifestJson final = sanitizer.sanitizeJsonValue (manifestJson final) ↔
      ∀ text ∈ exposed (recorded header s') persisted plugins entries,
        sanitizer.sanitizeStr text = text) := by
  have hwrote := ends_of_does does_reportStage hwrite
  have hjson : ∀ json, s.result.jsonPath = some json → json = reportName := by
    cases hwrote with
    | written _ _ hjson => exact hjson
    | failed _ _ hjson => exact hjson
  have hrewrote := ends_of_does (does_pngConverter hjson) hconvert
  have hbefore : s.files reportName ≠ none := by
    cases hrewrote with
    | idle => exact hthere
    | stopped hdata _ _ => simp [hdata]
    | replaced hdata _ _ _ => simp [hdata]
  obtain ⟨all, hall⟩ := stands_of_wrote hwrote hfree hbefore
  obtain ⟨written, entries, hstands⟩ := stands_of_rewrote hrewrote hall
  refine ⟨written, entries, hstands, ?_⟩
  intro final
  rw [hstands.masked_iff, manifest_masked_iff rfl rfl]
  -- an image is an artifact, so that its name is in the manifest
  have hnames : ∀ entry ∈ entries, ∀ image ∈ entry.2,
      image.1 ∈ manifestTexts (recorded header s') := by
    intro entry hentry image himage
    obtain ⟨artifact, hartifact, hname⟩ := mem_map.mp (hstands.images entry hentry image himage)
    refine mem_append_right _ (mem_flatMap.mpr ⟨_, mem_map_of_mem hartifact, ?_⟩)
    simp [hname]
  rw [exposed, and_comm]
  refine Iff.trans (and_congr_right fun hmanifest => ?_) forall_mem_append.symm
  constructor
  · intro h text htext
    split at htext
    · next hany =>
      obtain ⟨entry, hentry, hsome⟩ := any_eq_true.mp hany
      obtain ⟨image, himage⟩ := Option.isSome_iff_exists.mp hsome
      cases mem_singleton.mp htext
      exact (h entry hentry image himage).2
    · cases htext
  · intro h entry hentry image himage
    refine ⟨hmanifest _ (mem_append_left _ (hnames entry hentry image himage)), h "png" ?_⟩
    rw [if_pos (any_eq_true.mpr ⟨entry, hentry, Option.isSome_iff_exists.mpr ⟨image, himage⟩⟩)]
    exact mem_singleton_self _

end

def alice : Sanitizer := .fromIdentity (some "alice") (some "/Users/alice")

def header : ReportManifest where
  schemaVersion := 1
  reportId := ⟨"fedcba9876543210fedcba9876543210", by decide +kernel⟩
  reportType := .crash
  pid := 1
  process := "game"
  committedAt := "2024-01-01T00:00:00+00:00"
  destination := .outputRoot
  artifacts := []
  finalDiagnostics := none

/-- A postprocessor whose error is the text. -/
def failedUpload (text : String) : PluginDiagnostic where
  name := "Uploader"
  status := .error text
  durationMs := 0
  reportId := none
  startedOffsetMs := 0
  finishedOffsetMs := 0

/-- The manifest of a report with an image, and a failed upload. -/
def uploaded (text : String) : ReportManifest :=
  persistFinalDiagnostics true (recorded header (PlainReport.converted alice)) 0 [failedUpload text]

/-- The user's name does not stand in the report or in the error. -/
theorem offline_upload_masked : ∃ written entries,
    Stands PlainReport.codec alice ⟨[], PlainReport.copied.attachments.map formatAttachment⟩
      PlainReport.shots (PlainReport.converted alice) written entries ∧
    Alike written.document (alice.sanitizeJsonValue
      (StagedReport.mk [] (entries.map ReportEntry.json)).document) ∧
    manifestJson (uploaded "offline") =
      alice.sanitizeJsonValue (manifestJson (uploaded "offline")) := by
  have hexec {α : Type} (x : Staging.Task α) (s : Folder) :=
    Run.of_exec BusyFile.handle_step x.run s
  obtain ⟨written, entries, hstands, hiff⟩ := json_writes_sanitized_iff (by decide +kernel)
    (hexec _ PlainReport.copied)
    (hexec (pngConverter PlainReport.encodePng PlainReport.codec) (PlainReport.written alice))
    (by decide +kernel) header true 0 [failedUpload "offline"]
  refine ⟨written, entries, hstands, hiff.mpr fun text htext => ?_⟩
  have hall : ∀ text ∈ manifestTexts (recorded header (PlainReport.converted alice)) ++
      (lastRecords [failedUpload "offline"]).flatMap recordTexts ++ ["png"],
      alice.sanitizeStr text = text := by decide +kernel
  refine hall text (mem_append.mpr ((mem_append.mp htext).imp_right fun hpng => ?_))
  split at hpng
  · exact hpng
  · cases hpng

theorem final_diagnostics_unmasked :
    find? [.key "final_diagnostics", .key "plugins", .key "Uploader", .key "error"]
        (manifestJson (uploaded "/Users/alice/token")) = some (.string "/Users/alice/token") ∧
      manifestJson (uploaded "/Users/alice/token") ≠
        alice.sanitizeJsonValue (manifestJson (uploaded "/Users/alice/token")) := by
  refine ⟨by rfl, fun h => ?_⟩
  have hsame := (mapTexts_eq_self_iff _ _).mp h "/Users/alice/token" (by decide +kernel)
  exact absurd hsame (by decide +kernel)

end CrashMonitor.Privacy
