import CrashMonitor.Staging.Archiver
import CrashMonitor.Staging.Attachments

/-!
# What the steps of a report do

One statement for each part of `write_report`, `PNGConverter` and `RawCleanup`:
what a screenshot, an image or a replaced report leaves in the directory, and
what it can leave when it fails. `Shoots` and `Converts` say it for the two
loops, `Drops` for the removals; what holds of the files of a report follows
from them.
-/

namespace CrashMonitor.Staging

open Lib Lib.Decode Store Interleave Privacy Function List

theorem textOf_of_alike {value other} (h : Alike value other) (key : String) :
    textOf key value = textOf key other := by
  have hmember := h.member key
  unfold textOf
  generalize member? key value = found at hmember ⊢
  generalize member? key other = found' at hmember ⊢
  cases hmember with
  | none => rfl
  | some hfound => exact hfound.text_eq

/-- What is read back has alike entries. -/
theorem ReportCodec.alike_attachments (codec : ReportCodec) {report found}
    (h : codec.decode (codec.encode report) = some found) :
    Forall₂ Alike found.attachments report.attachments := by
  have hmember : ∀ report : StagedReport,
      member? "attachments" report.document = some (.array report.attachments) := by
    intro report
    rw [StagedReport.document, member?, reverse_append]
    rfl
  have halike := (codec.decode_encode report found h).member "attachments"
  rw [hmember, hmember] at halike
  cases halike with
  | some halike => exact halike.values

/-- A converted screenshot has the members of an image, and the others it had. -/
theorem member?_pngAttachment (key image : String) (size : Nat) (members : List (String × Json)) :
    member? key (pngAttachment image size (.object members)) =
      if key = "width" ∨ key = "height" then none
      else if key = "size" then some (.number size)
      else if key = "format" then some (.string "png")
      else if key = "file" then some (.string image)
      else member? key (.object members) := by
  rw [pngAttachment, member?_filter (fun key => key ≠ "width" && key ≠ "height"),
    member?_insertMember, member?_insertMember, member?_insertMember]
  by_cases h : key = "width" ∨ key = "height"
  · rcases h with rfl | rfl <;> rfl
  · rw [if_neg h, if_pos (by simpa using not_or.mp h)]

section

variable {reliable : Bool} {s s' : Folder} {name : String} {data : Bytes}

theorem reads_timedOut : Reads reliable s timedOut fun _ => True :=
  fun _ _ hstep => ⟨hstep, fun _ _ => trivial⟩

theorem reads_result : Reads reliable s reportResult fun r => r = s.result := by
  intro r s' hstep
  refine ⟨hstep.2, ?_⟩
  rintro _ ⟨⟩
  exact hstep.1

theorem reads_readAll : Reads reliable s (readAll name) fun data => s.files name = some data := by
  intro r s' hstep
  cases r with
  | ok data =>
    refine ⟨hstep.2, ?_⟩
    rintro _ ⟨⟩
    exact hstep.1
  | error e => exact ⟨hstep, by simp⟩

theorem reads_artifacts : Reads reliable s artifacts fun list => list = s.registry.entries := by
  intro r s' hstep
  refine ⟨hstep.2, ?_⟩
  rintro _ ⟨⟩
  exact hstep.1

/-! ## Writing -/

/-- A name that only a temporary file or one set aside has. -/
def Hidden (name : String) : Prop := ∃ rest, name = "." ++ rest

theorem append_ne_reportName {first c rest}
    (hfirst : first.toList.head? = some c) (hc : c ≠ 'r') : first ++ rest ≠ reportName := by
  intro heq
  have hhead := congrArg (fun name => name.toList.head?) heq
  simp only [String.toList_append, List.head?_append, hfirst, Option.some_or] at hhead
  exact hc (Option.some.inj hhead)

theorem Hidden.ne_reportName (h : Hidden name) : name ≠ reportName := by
  obtain ⟨rest, rfl⟩ := h
  exact append_ne_reportName rfl (by decide)

theorem hidden_quarantineName (nonce : String) : Hidden (quarantineName nonce) :=
  ⟨"publish-" ++ nonce ++ ".pending", by simp [quarantineName, ← String.append_assoc]⟩

/-- What a file that could not be published may leave. -/
def Remnant (name : String) (data : Bytes) (new : String) (written : Bytes) : Prop :=
  Hidden new ∨ new = name ∧ written = data

/-- A file that could not be written leaves no report, or the one it was to be. -/
theorem Abandoned.report (h : Abandoned (Remnant name data) s s')
    (hfree : s.files reportName = none) {found} (hfound : s'.files reportName = some found) :
    name = reportName ∧ found = data := by
  obtain ⟨files, read, rfl, hspares⟩ := h
  rcases hspares reportName with hsame | ⟨-, written, hwritten, hhidden | ⟨hname, hdata⟩⟩
  · cases (hsame.trans hfree).symm.trans hfound
  · exact absurd rfl hhidden.ne_reportName
  · cases hwritten.symm.trans hfound
    exact ⟨hname.symm, hdata⟩

theorem does_fillFile {check report temporary read}
    (hcheck : ∀ s, Reads reliable s check fun _ => True) (chunks : List Bytes)
    (old : Bytes) : Does reliable (s.copying temporary old read)
      (fillFile check report temporary chunks)
      (fun _ s' => s' = s.copying temporary (old ++ chunks.flatten) read)
      (s.Filling temporary) := by
  induction chunks generalizing old with
  | nil =>
    refine .read (reads_probe _).mapError ⟨_, _, rfl⟩ fun _ _ => ?_
    exact .still (reads_probe _).mapError (fun _ _ => by simp) ⟨_, _, rfl⟩
  | cons chunk chunks ih =>
    refine .read (hcheck _) ⟨_, _, rfl⟩ fun _ _ => ?_
    apply (does_writeAll chunk).mapError.bind
    rintro _ _ rfl
    rw [flatten_cons, ← append_assoc]
    exact ih (old ++ chunk)

/-- The temporary file is filled with the data. -/
abbrev Fills (reliable : Bool) (s : Folder) (temporary : String) (x : Task Unit) (data : Bytes) :
    Prop := Does reliable (s.copying temporary [] s.taken) x
    (fun _ s' => s' = s.copying temporary data s.taken) (s.Filling temporary)

/-- A new file is published complete, or not at all. -/
theorem does_publishNew {temporary createError publishError body} (hhidden : Hidden temporary)
    (hbody : Fills reliable s temporary body data) :
    Does reliable s (publishNew temporary name createError publishError body)
      (fun _ s' => s.files name = none ∧ s' = s.setFile name (some data))
      (Abandoned (Remnant name data) s) := by
  apply ((does_create temporary).weaken fun _ h =>
    h.mono fun _ _ hnew => .inl (hnew.2 ▸ hhidden)).mapError.bind
  rintro _ _ ⟨hfree, rfl⟩
  apply (does_publishThrough (P := fun _ written read => written = data ∧ read = s.taken) hfree
    (hbody.mono (fun _ _ h => ⟨data, s.taken, ⟨rfl, rfl⟩, h⟩) fun _ h => h)).mono
  · rintro _ _ ⟨_, _, ⟨rfl, rfl⟩, hname, rfl⟩
    exact ⟨hname, rfl⟩
  rintro s' ⟨nonce, h⟩
  apply h.mono
  rintro new written (⟨⟨-, -, hdata, -⟩, rfl | ⟨-, rfl⟩⟩ | ⟨-, rfl⟩)
  · exact .inl (hidden_quarantineName nonce)
  · exact .inr ⟨rfl, hdata⟩
  · exact .inl hhidden

theorem achieves_sync : Achieves (stagingStep reliable) s
    (probe "sync the directory").outcome fun _ s' => s' = s := by
  have hprobe : Ensures (stagingStep reliable) s (probe "sync the directory").run
      fun _ s' => s' = s := fun _ _ hstep => hstep
  apply (Achieves.outcome hprobe).mono
  rintro _ _ h
  exact h

/-- A file with a registration. -/
def Folder.add (s : Folder) (name : String) (data : Bytes) (kind : ArtifactKind) : Folder :=
  (s.setFile name (some data)).register name kind

theorem does_writeBytes {kind} : Does reliable s (writeBytes name kind data)
      (fun _ s' => s.files name = none ∧ s' = s.add name data kind)
      (Abandoned (Remnant name data) s) := by
  have hrefl : Abandoned (Remnant name data) s s := ⟨s.files, s.taken, rfl, .refl _⟩
  have hfill : ∀ temporary report, Fills reliable s temporary
      (fillFile (pure ()) report temporary [data]) data := by
    intro temporary report
    apply (does_fillFile (fun _ => .pure trivial) [data] []).mono _ (fun _ h => h)
    intro _ _ h
    rwa [nil_append, flatten_singleton] at h
  have hstore : Does reliable s (storeArtifact name kind data)
      (fun _ s' => s.files name = none ∧ s' = s.add name data kind)
      (Abandoned (Remnant name data) s) := by
    refine .read reads_uuid hrefl fun nonce _ => ?_
    apply (does_publishNew ⟨_, rfl⟩ (hfill _ _)).bind
    rintro _ _ ⟨hfree, rfl⟩
    rintro _ _ rfl
    exact achieves_sync.past fun _ => ⟨hfree, rfl⟩
  refine .read (reads_probe _) hrefl fun _ _ => ?_
  split
  · exact .throw hrefl
  have hsize : Does reliable s (fileSize name) (fun _ s' => s' = s)
      (fun s' => s' = s) := .still (reads_fileSize name) (fun _ _ => rfl) rfl
  apply hsize.outcome
  · intro _ _ hsame
    exact .throw (hsame ▸ hrefl)
  intro _ _ hsame
  rw [hsame]
  exact hstore

/-! ## Screenshots -/

theorem rgbaName_ne_reportName (i : Nat) : rgbaName i ≠ reportName := by
  unfold rgbaName
  rw [String.append_assoc]
  exact append_ne_reportName rfl (by decide)

/-- What the screenshot loop does: it adds a screenshot, or fails to write it. -/
inductive Shoots (shots : List Screenshot) (s : Folder) (entries : List Json) :
    Folder → List Json → Prop
  | start : Shoots shots s entries s entries
  | shot {s' all shot i} (h : Shoots shots s entries s' all) (hshot : (shot, i) ∈ shots.zipIdx)
      (hfree : s'.files (rgbaName i) = none) : Shoots shots s entries
        (s'.add (rgbaName i) shot.rgba .screenshotRgba) (all ++ [rgbaAttachment i shot])
  | failed {s' s'' all shot i} (h : Shoots shots s entries s' all)
      (hs : Abandoned (Remnant (rgbaName i) shot) s' s'') : Shoots shots s entries s'' all

theorem does_writeScreenshots {shots s₀ entries₀ entries E} (rest : List Screenshot) (i : Nat)
    (hrest : rest.zipIdx i ⊆ shots.zipIdx) (h : Shoots shots s₀ entries₀ s entries) :
    Does reliable s (writeScreenshots i rest entries)
      (fun all s' => Shoots shots s₀ entries₀ s' all) E := by
  induction rest generalizing i s entries with
  | nil => exact .pure h
  | cons shot rest ih =>
    rw [zipIdx_cons, cons_subset] at hrest
    apply does_writeBytes.outcome
    · rintro _ _ ⟨hfree, rfl⟩
      exact ih (i + 1) hrest.2 (h.shot hrest.1 hfree)
    · exact fun _ s' hs => ih (i + 1) hrest.2 (h.failed hs)

namespace Shoots

variable {shots : List Screenshot} {entries all : List Json}

theorem report_free (h : Shoots shots s entries s' all) (hfree : s.files reportName = none) :
    s'.files reportName = none := by
  induction h with
  | start => exact hfree
  | @shot s' _ shot i _ _ _ ih =>
    exact (update_of_ne (rgbaName_ne_reportName i).symm (some shot.rgba) s'.files).trans ih
  | @failed _ s'' _ _ i _ hs ih =>
    by_contra hthere
    obtain ⟨found, hfound⟩ := Option.ne_none_iff_exists'.mp hthere
    exact rgbaName_ne_reportName i (hs.report ih hfound).1

/-- The entries are those there were and some of the screenshots. -/
theorem entries_eq (h : Shoots shots s entries s' all) : ∃ kept, kept ⊆ shots.zipIdx ∧
    all = entries ++ kept.map fun shot => rgbaAttachment shot.2 shot.1 := by
  induction h with
  | start => exact ⟨[], nil_subset _, by simp⟩
  | @shot _ _ shot i _ hshot _ ih =>
    obtain ⟨kept, hkept, rfl⟩ := ih
    refine ⟨kept ++ [(shot, i)], append_subset.mpr ⟨hkept, by simpa using hshot⟩, by simp⟩
  | failed _ _ ih => exact ih

end Shoots

/-! ## Conversion -/

theorem flatten_chunksOf {size} (hsize : 0 < size) (rounds : Nat) (data : Bytes)
    (hrounds : data.length ≤ rounds) : (chunksOf size rounds data).flatten = data := by
  induction rounds generalizing data with
  | zero =>
    rw [eq_nil_of_length_eq_zero (Nat.le_zero.mp hrounds)]
    rfl
  | succ rounds ih =>
    cases data with
    | nil => rfl
    | cons b data =>
      have hshort : ((b :: data).drop size).length ≤ rounds := by
        rw [length_drop]
        omega
      rw [chunksOf, flatten_cons, ih _ hshort, take_append_drop]
      simp

theorem does_fillBytes {check kind temporary}
    (hcheck : ∀ s, Reads reliable s check fun _ => True) :
    Fills reliable s temporary (fillBytes check kind temporary data) data := by
  apply (does_fillFile hcheck _ []).mono _ (fun _ h => h)
  intro _ _ h
  rwa [nil_append, flatten_chunksOf (by decide) _ _ le_rfl] at h

/-- Nothing was published. -/
abbrev Undone (s s' : Folder) : Prop := Abandoned (fun _ _ => True) s s'

theorem Undone.refl (s : Folder) : Undone s s := ⟨s.files, s.taken, rfl, .refl _⟩

theorem does_publishPng : Does reliable s (publishPng name data)
      (fun _ s' => s.files name = none ∧ s' = s.setFile name (some data)) (Undone s) := by
  refine .read reads_uuid (.refl s) fun nonce _ => ?_
  have hbody : ∀ temporary, Fills reliable s temporary (do
      fillBytes checkpoint "PNG" temporary data
      checkpoint) data := by
    intro temporary
    apply (does_fillBytes (fun _ => reads_checkpoint)).bind
    rintro _ _ rfl
    exact .still reads_checkpoint (fun _ _ => rfl) ⟨_, _, rfl⟩
  apply ((does_publishNew ⟨_, rfl⟩ (hbody _)).weaken fun _ h => h.mono fun _ _ _ => trivial).bind
  rintro _ _ h
  exact achieves_sync.past fun _ => h

theorem does_replaceReport : Does reliable s (replaceReport reportName data)
      (fun _ s' => s' = s.setFile reportName (some data)) (Undone s) := by
  refine .read reads_uuid (.refl s) fun nonce _ => ?_
  have hhidden : Hidden (pendingName reportName nonce) := ⟨_, rfl⟩
  generalize pendingName reportName nonce = temporary at hhidden
  apply ((does_create temporary).weaken fun _ h => h.mono fun _ _ _ => trivial).mapError.bind
  rintro _ _ ⟨hfree, rfl⟩
  have hstay : ∀ written read, Abandoned (fun name _ => name = temporary ∨ False) s
      (s.copying temporary written read) := fun written read =>
    ⟨_, read, rfl, (Spares.refl _).update hfree fun _ _ => .inl rfl⟩
  have hbody : Does reliable (s.copying temporary [] s.taken) (do
        fillBytes (pure ()) "report" temporary data
        (replace temporary reportName).mapError fun e => s!"Failed to replace report: {e}")
      (fun _ s' => s' = s.setFile reportName (some data))
      (Abandoned (fun name _ => name = temporary ∨ False) s) := by
    refine .bind ((does_fillBytes (fun _ => .pure trivial)).weaken ?_) ?_
    · rintro _ ⟨written, read, rfl⟩
      exact hstay written read
    rintro _ _ rfl
    apply Does.mapError
    intro r s' hstep
    cases r with
    | error e =>
      rw [show s' = _ from hstep]
      exact hstay data s.taken
    | ok u =>
      obtain ⟨found, hfound, rfl⟩ := hstep
      cases (update_self ..).symm.trans hfound
      -- the temporary name is free again
      have hclear : update s.files temporary none = s.files := hfree ▸ update_eq_self ..
      show (s.copying temporary data s.taken).moveFile temporary reportName data = _
      simp [Folder.copying, Folder.moveFile, Folder.setFile, hclear]
  refine .bind ((does_removingOnError hbody).weaken ?_) ?_
  · rintro s' ⟨s₁, h, hremoved⟩
    exact (h.removed hfree hremoved).mono fun _ _ _ => trivial
  intro _ _ h
  exact achieves_sync.past fun _ => h

/-- The image of a screenshot: it is named after the file, and complete. -/
structure Image (encodePng : Bytes → Nat → Nat → Option Bytes) (attachment : Json)
    (c : ConvertedRgba) (png : Bytes) : Prop where
  format : textOf "format" attachment = some "rgba"
  file : textOf "file" attachment = some c.path
  names : ∃ stem, stripRgba c.path = some stem ∧ c.pngPath = stem ++ ".png"
  complete : ∃ rgba width height, encodePng rgba width height = some png

variable {encodePng : Bytes → Nat → Nat → Option Bytes}

/-- What the conversion of one entry does. -/
def Converted (encodePng : Bytes → Nat → Nat → Option Bytes) (s : Folder) (attachment : Json) :
    Option (Json × ConvertedRgba) → Folder → Prop
  | none, s' => Undone s s'
  | some (entry, c), s' => ∃ png, Image encodePng attachment c png ∧ s.files c.pngPath = none ∧
      s' = s.setFile c.pngPath (some png) ∧ entry = pngAttachment c.pngPath png.length attachment

theorem reads_readRgbaExact {file expected} :
    Reads reliable s (readRgbaExact file expected) fun _ => True := by
  refine .bind reads_checkpoint fun _ _ => ?_
  refine .bind (reads_fileSize file).mapError fun size _ => ?_
  refine .bind reads_checkpoint fun _ _ => ?_
  split
  · exact .throw
  refine .bind reads_readAll fun data _ => ?_
  split
  · exact .throw
  · exact .pure trivial

theorem conversionOf_eq_some {attachment file width height expected}
    (h : conversionOf attachment = some (file, width, height, expected)) :
    textOf "format" attachment = some "rgba" ∧ textOf "file" attachment = some file := by
  unfold conversionOf at h
  split at h
  · cases h
  next hformat =>
  obtain ⟨found, hfound, h⟩ := Option.bind_eq_some_iff.mp h
  split at h
  · cases h
  simp only [Option.bind_eq_bind, Option.bind_eq_some_iff, Option.pure_def,
    Option.some.injEq, Prod.mk.injEq] at h
  obtain ⟨_, -, _, -, _, -, rfl, -⟩ := h
  exact ⟨not_not.mp hformat, hfound⟩

theorem does_convertOne {attachment} : Does reliable s (convertOne encodePng attachment)
      (Converted encodePng s attachment) (Undone s) := by
  have hnone : Converted encodePng s attachment none s := .refl s
  refine .read reads_timedOut (.refl s) fun late _ => ?_
  split
  · exact .pure hnone
  split
  · exact .pure hnone
  next file width height expected hconversion =>
  obtain ⟨hformat, hfile⟩ := conversionOf_eq_some hconversion
  have hread : Does reliable s (readRgbaExact file expected)
      (fun _ s' => s' = s) (fun s' => s' = s) := .still reads_readRgbaExact (fun _ _ => rfl) rfl
  apply hread.outcome
  · intro rgba _ hsame
    rw [hsame]
    refine .read reads_timedOut (.refl s) fun late _ => ?_
    split
    · exact .pure hnone
    split
    · exact .pure hnone
    next png hpng =>
    refine .read reads_timedOut (.refl s) fun late _ => ?_
    split
    · exact .pure hnone
    split
    · exact .pure hnone
    next stem hstem =>
    apply does_publishPng.outcome
    · rintro _ _ ⟨hfree, rfl⟩
      exact .pure ⟨png, ⟨hformat, hfile, ⟨stem, hstem, rfl⟩, rgba, width, height, hpng⟩, hfree,
        rfl, rfl⟩
    · exact fun _ s' h => .pure (show Undone s s' from h)
  · intro _ _ hsame
    rw [hsame]
    exact .pure hnone

/-- What the conversion loop does to the entries it has seen: each is kept, or
stands for the image that was published and registered. -/
inductive Converts (encodePng : Bytes → Nat → Nat → Option Bytes) (s : Folder) :
    List Json → List Json → List ConvertedRgba → Folder → Prop
  | start : Converts encodePng s [] [] [] s
  | kept {seen done converted attachment s' s''} (h : Converts encodePng s seen done converted s')
      (hs : Undone s' s'') :
      Converts encodePng s (seen ++ [attachment]) (done ++ [attachment]) converted s''
  | image {seen done converted attachment c png s' paths}
      (h : Converts encodePng s seen done converted s') (himage : Image encodePng attachment c png)
      (hfree : s'.files c.pngPath = none) : Converts encodePng s (seen ++ [attachment])
        (done ++ [pngAttachment c.pngPath png.length attachment]) (converted ++ [c])
        { s'.add c.pngPath png .screenshotPng with
          result := { s'.result with artifactPaths := paths } }

theorem does_convertAll {s₀ seen done converted} (rest : List Json)
    (h : Converts encodePng s₀ seen done converted s) :
    Does reliable s (convertAll encodePng rest done converted)
      (fun found s' => Converts encodePng s₀ (seen ++ rest) found.1 found.2 s')
      (fun s' => ∃ seen done converted u, Converts encodePng s₀ seen done converted u ∧
        Undone u s') := by
  induction rest generalizing s seen done converted with
  | nil => exact .pure (by rwa [append_nil])
  | cons attachment rest ih =>
    have hstop : ∀ s', Undone s s' → ∃ seen done converted u,
        Converts encodePng s₀ seen done converted u ∧ Undone u s' :=
      fun s' hs => ⟨seen, done, converted, s, h, hs⟩
    have hcheck : Reads reliable s (checkpointIf converted.isEmpty) fun _ => True := by
      unfold checkpointIf
      split
      · exact reads_checkpoint
      · exact .pure trivial
    refine .read hcheck (hstop s (.refl s)) fun _ _ => ?_
    rw [append_cons seen]
    apply (does_convertOne.weaken hstop).bind
    intro found s' hfound
    cases found with
    | none => exact ih (h.kept hfound)
    | some found =>
      obtain ⟨entry, c⟩ := found
      obtain ⟨png, himage, hfree, rfl, rfl⟩ := hfound
      intro r s' hstep
      cases r with
      | error e =>
        rw [show s' = _ from hstep]
        exact hstop _ ⟨_, s.taken, rfl, (Spares.refl _).update hfree fun _ _ => trivial⟩
      | ok u =>
        obtain ⟨-, -, rfl⟩ := hstep
        rintro result _ ⟨rfl, rfl⟩ _ _ rfl
        exact ih (h.image himage hfree)

namespace Converts

variable {seen done : List Json} {converted : List ConvertedRgba}

/-- Nothing that was there is touched. -/
theorem kept_there (h : Converts encodePng s seen done converted s') :
    (∀ name data, s.files name = some data → s'.files name = some data) ∧
      (∀ name kind, s.files name ≠ none → (name, kind) ∈ s.registry.entries →
        (name, kind) ∈ s'.registry.entries) ∧ s'.result.jsonPath = s.result.jsonPath := by
  induction h with
  | start => exact ⟨fun _ _ => id, fun _ _ _ => id, rfl⟩
  | kept _ hs ih =>
    obtain ⟨files, read, rfl, hspares⟩ := hs
    exact ⟨fun name data hdata => hspares.kept (ih.1 name data hdata), ih.2⟩
  | @image _ _ _ _ c png s' _ _ _ hfree ih =>
    have hne : ∀ name, s.files name ≠ none → name ≠ c.pngPath := by
      rintro name hthere rfl
      obtain ⟨data, hdata⟩ := Option.ne_none_iff_exists'.mp hthere
      cases hfree.symm.trans (ih.1 _ data hdata)
    refine ⟨fun name data hdata => ?_, fun name kind hthere hmem => ?_, ih.2.2⟩
    · exact (update_of_ne (hne name (by simp [hdata])) _ s'.files).trans (ih.1 name data hdata)
    · exact SortedMap.mem_insert_of_ne (ih.2.1 name kind hthere hmem) (hne name hthere)

end Converts

/-! ## Removals -/

/-- Nothing but what has these names is gone. -/
structure Drops (paths : List String) (s s' : Folder) : Prop where
  files : ∀ name ∉ paths, s'.files name = s.files name
  registry : ∀ name ∉ paths, ∀ kind, (name, kind) ∈ s.registry.entries →
    (name, kind) ∈ s'.registry.entries
  gone : ∀ name data, s'.files name = some data → s.files name = some data
  json : s'.result.jsonPath = s.result.jsonPath

theorem Drops.refl (paths : List String) (s : Folder) : Drops paths s s :=
  ⟨fun _ _ => rfl, fun _ _ _ => id, fun _ _ => id, rfl⟩

section

variable {paths : List String} {path : String} {s₀ : Folder} (h : Drops paths s₀ s)
include h

theorem does_forget (hpath : path ∈ paths) : Keeps reliable s (forget path) (Drops paths s₀) := by
  intro r s' hstep
  cases r with
  | error e =>
    rw [show s' = s from hstep]
    exact h
  | ok u =>
    rw [show s' = s.unregister path from hstep]
    rintro result _ ⟨rfl, rfl⟩ _ _ rfl
    refine ⟨h.files, fun name hname kind hmem => mem_filter.mpr ⟨h.registry name hname kind hmem,
      ?_⟩, h.gone, h.json⟩
    simpa using fun heq : name = path => hname (heq ▸ hpath)

theorem does_remove (hpath : path ∈ paths) : Keeps reliable s (remove path) (Drops paths s₀) := by
  intro r s' hstep
  cases r with
  | ok u =>
    obtain ⟨-, rfl⟩ := hstep
    refine ⟨fun name hname => ?_, h.registry, fun name data hdata => ?_, h.json⟩
    · have hne : name ≠ path := fun heq => hname (heq ▸ hpath)
      exact (update_of_ne hne none s.files).trans (h.files name hname)
    · by_cases hname : name = path
      · rw [hname] at hdata
        cases (s.setFile_same ..).symm.trans hdata
      · rw [Folder.setFile_files, update_of_ne hname] at hdata
        exact h.gone name data hdata
  | error e =>
    cases e <;> exact hstep.2 ▸ h

theorem does_removeRaw {raws} (hraws : raws ⊆ paths) :
    Keeps reliable s (removeRaw raws) (Drops paths s₀) := by
  induction raws generalizing s with
  | nil => exact .pure h
  | cons raw raws ih =>
    obtain ⟨hraw, hrest⟩ := cons_subset.mp hraws
    have hnext : ∀ s, Drops paths s₀ s →
        Keeps reliable s (do forget raw; removeRaw raws) (Drops paths s₀) :=
      fun s hs => (does_forget hs hraw).bind fun _ s' hs' => ih hs' hrest
    apply (does_remove h hraw).bind
    intro removed s' hs'
    cases removed with
    | ok u => exact hnext s' hs'
    | error e =>
      cases e with
      | missing => exact hnext s' hs'
      | _ => exact .throw hs'

theorem does_removeConverted {converted} (hconverted : converted.map (·.path) ⊆ paths) :
    Keeps reliable s (removeConverted converted) (Drops paths s₀) := by
  induction converted generalizing s with
  | nil => exact .pure h
  | cons c converted ih =>
    obtain ⟨hc, hrest⟩ := cons_subset.mp hconverted
    have hremove : Keeps reliable s (removeIfUnchanged c.path) (Drops paths s₀) := by
      have hunchanged : Reads reliable s (unchanged c.path) fun _ => True :=
        fun _ _ hstep => ⟨hstep, fun _ _ => trivial⟩
      refine .read hunchanged h fun found _ => ?_
      split
      · exact .pure h
      · exact .pure h
      · exact .pure h
      · apply (does_remove h hc).bind
        intro removed s' hs'
        split <;> exact .pure hs'
    apply hremove.bind
    intro removed s' hs'
    split
    · exact (does_forget hs' hc).bind fun _ s'' hs'' => ih hs'' hrest
    · exact ih hs' hrest

end

theorem reads_loadReport {codec : ReportCodec} : Reads reliable s (loadReport codec name)
    fun report => ∃ data, s.files name = some data ∧ codec.decode data = some report := by
  refine .bind reads_checkpoint fun _ _ => ?_
  refine .bind (reads_fileSize name).mapError fun size _ => ?_
  split
  · exact .throw
  refine .bind reads_readAll fun data hdata => ?_
  split
  · exact .throw
  · next report hreport => exact .pure ⟨data, hdata, hreport⟩

/-! ## The steps -/

section

variable {codec : ReportCodec} {sanitizer : Sanitizer} {report : StagedReport}
  {shots : List Screenshot}

/-- What `write_report` leaves: the screenshots, and the masked report complete
or not at all. -/
inductive Wrote (codec : ReportCodec) (sanitizer : Sanitizer) (report : StagedReport)
    (shots : List Screenshot) (s : Folder) : Folder → Prop
  | written {u all result} (h : Shoots shots s report.attachments u all)
      (hfree : u.files reportName = none)
      (hjson : ∀ json, result.jsonPath = some json → json = reportName) :
      Wrote codec sanitizer report shots s { u.add reportName
        (codec.encode (sanitizeReport sanitizer ⟨report.others, all⟩)) .report with
          result := result }
  | failed {u v all result} (h : Shoots shots s report.attachments u all)
      (hs : Abandoned (Remnant reportName
        (codec.encode (sanitizeReport sanitizer ⟨report.others, all⟩))) u v)
      (hjson : ∀ json, result.jsonPath = some json → json = reportName) :
      Wrote codec sanitizer report shots s { v with result := result }

theorem does_reportStage : Keeps reliable s (reportStage codec sanitizer report shots)
    (Wrote codec sanitizer report shots s) := by
  -- the result names the report, if anything
  have hend : ∀ (u : Folder) (written : Except String Unit) (P : Folder → Prop),
      (∀ result : ReportResult, (∀ json, result.jsonPath = some json → json = reportName) →
        P { u with result := result }) →
      Keeps reliable u (do
        let late ← timedOut
        let result ← reportResult
        let registered ← artifacts
        setResult ⟨registered.map Prod.fst, result.rawPath,
          if late || written.toOption.isNone then none else some reportName⟩) P := by
    intro u written P hP
    rintro late _ rfl result _ ⟨rfl, rfl⟩ list _ ⟨rfl, rfl⟩ _ _ rfl
    refine hP _ fun json hjson => ?_
    split at hjson
    · cases hjson
    · exact (Option.some.inj hjson).symm
  have hwrite : Does reliable s (writeReport codec sanitizer report shots)
      (fun _ s' => ∃ u all, Shoots shots s report.attachments u all ∧
        u.files reportName = none ∧ s' = u.add reportName
          (codec.encode (sanitizeReport sanitizer ⟨report.others, all⟩)) .report)
      (fun s' => ∃ u all, Shoots shots s report.attachments u all ∧
        Abandoned (Remnant reportName
          (codec.encode (sanitizeReport sanitizer ⟨report.others, all⟩))) u s') := by
    apply (does_writeScreenshots shots 0 (fun _ => id) .start).bind
    intro all u hshoots
    refine .read (reads_probe _) ⟨u, all, hshoots, _, u.taken, rfl, .refl _⟩ fun _ _ => ?_
    apply (does_writeBytes.mono _ _).mapError
    · rintro _ _ ⟨hfree, rfl⟩
      exact ⟨u, all, hshoots, hfree, rfl⟩
    · exact fun _ hs => ⟨u, all, hshoots, hs⟩
  apply hwrite.outcome
  · rintro _ _ ⟨u, all, hshoots, hfree, rfl⟩
    exact hend _ _ _ fun _ hjson => .written hshoots hfree hjson
  · rintro _ _ ⟨u, all, hshoots, hs⟩
    exact hend _ _ _ fun _ hjson => .failed hshoots hs hjson

/-- What `PNGConverter` leaves: the report as it was, or one that names the
images instead of the dumps, which may be gone. -/
inductive Rewrote (codec : ReportCodec) (encodePng : Bytes → Nat → Nat → Option Bytes)
    (s : Folder) : Folder → Prop
  | idle : Rewrote codec encodePng s s
  | stopped {data seen done converted u s'} (hdata : s.files reportName = some data)
      (h : Converts encodePng s seen done converted u) (hs : Undone u s') :
      Rewrote codec encodePng s s'
  | replaced {data report entries converted u s'} (hdata : s.files reportName = some data)
      (hdecode : codec.decode data = some report)
      (h : Converts encodePng s report.attachments entries converted u)
      (hs : Drops (converted.map (·.path))
        (u.setFile reportName (some (codec.encode ⟨report.others, entries⟩))) s') :
      Rewrote codec encodePng s s'

theorem does_pngConverter (hjson : ∀ json, s.result.jsonPath = some json → json = reportName) :
    Keeps reliable s (pngConverter encodePng codec) (Rewrote codec encodePng s) := by
  refine .read reads_checkpoint .idle fun _ _ => ?_
  refine .read reads_result .idle fun result hresult => ?_
  subst hresult
  split
  · exact .pure .idle
  next json hname =>
  cases hjson json hname
  refine .read (reads_probe _) .idle fun _ _ => ?_
  refine .read reads_loadReport .idle fun report hreport => ?_
  obtain ⟨data, hdata, hdecode⟩ := hreport
  refine .bind ((does_convertAll report.attachments .start).weaken ?_) ?_
  · rintro s' ⟨seen, done, converted, u, h, hs⟩
    exact .stopped hdata h hs
  rintro ⟨entries, converted⟩ u h
  have hstop : ∀ s', Undone u s' → Rewrote codec encodePng s s' := fun _ => .stopped hdata h
  split
  · exact .still reads_checkpoint (fun _ _ => hstop u (.refl u)) (hstop u (.refl u))
  refine .read (reads_probe _).mapError (hstop u (.refl u)) fun _ _ => ?_
  apply (does_replaceReport.weaken hstop).bind
  rintro _ _ rfl
  have hdone : ∀ s', Drops (converted.map (·.path)) (u.setFile reportName
      (some (codec.encode ⟨report.others, entries⟩))) s' → Rewrote codec encodePng s s' :=
    fun _ => .replaced hdata hdecode h
  apply ((does_removeConverted (.refl _ _) fun _ => id).weaken hdone).bind
  exact fun _ s' hs => .still reads_checkpoint (fun _ _ => hdone s' hs) (hdone s' hs)

/-- The raw artifacts of the first stage. -/
def rawNames (s : Folder) : List String :=
  (s.registry.entries.filter fun artifact => isRaw artifact.2).map Prod.fst

theorem does_rawCleanup : Keeps reliable s rawCleanup (Drops (rawNames s) s) := by
  have hrefl := Drops.refl (rawNames s) s
  refine .read reads_checkpoint hrefl fun _ _ => ?_
  refine .read reads_result hrefl fun result _ => ?_
  split
  · exact .still reads_checkpoint (fun _ _ => hrefl) hrefl
  refine .read reads_artifacts hrefl fun registered hregistered => ?_
  subst hregistered
  apply (does_removeRaw hrefl fun _ => id).bind
  intro _ s' hs'
  refine .read reads_result hs' fun result hresult => ?_
  subst hresult
  rintro _ _ rfl
  have hend : Drops (rawNames s) s { s' with result := { s'.result with rawPath := none } } :=
    ⟨hs'.files, hs'.registry, hs'.gone, hs'.json⟩
  exact Does.still reads_checkpoint (fun _ _ => hend) hend

end

end

end CrashMonitor.Staging
