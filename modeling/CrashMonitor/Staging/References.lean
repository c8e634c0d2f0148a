import CrashMonitor.Staging.Steps
import CrashMonitor.Privacy.Completeness
import CrashMonitor.Lib.Serial
import Mathlib.Data.List.Nodup

/-!
# No dangling attachment

What `report.json` names is there: `AttachmentCopier`, `write_report`,
`PNGConverter` and `RawCleanup` keep every named file in the staging directory
and registered, whatever call fails. Names differ because a file is only ever
published under a free name, and a named file is never a raw artifact. The
argument needs that masking the report leaves the file names alone.
-/

namespace CrashMonitor.Staging

open Lib Lib.Decode Store Interleave Privacy Function List

/-! ## References -/

/-- The file an entry names, and whether as an image. -/
def reference (attachment : Json) : Option (String × Bool) :=
  (textOf "file" attachment).map fun file => (file, textOf "format" attachment = some "png")

def references (attachments : List Json) : List (String × Bool) := attachments.filterMap reference

theorem references_of_alike {attachments others} (h : Forall₂ Alike attachments others) :
    references attachments = references others := by
  induction h with
  | nil => rfl
  | @cons first other _ _ hfirst _ ih =>
    have hone : reference first = reference other := by
      rw [reference, reference, textOf_of_alike hfirst, textOf_of_alike hfirst]
    rw [references, references, filterMap_cons, filterMap_cons, hone]
    split
    · exact ih
    · exact congrArg _ ih

/-- A converted screenshot names the image, as one. -/
theorem reference_pngAttachment {attachment : Json} {file} (image : String) (size : Nat)
    (hfile : textOf "file" attachment = some file) :
    reference (pngAttachment image size attachment) = some (image, true) := by
  cases attachment with
  | object members => simp [reference, textOf, member?_pngAttachment, text]
  | _ => cases hfile

/-! ## Masking -/

/-- A text is left alone, or what replaces a part of it is there. -/
theorem mem_replaceLoop {pattern replacement c} (hc : c ∈ replacement)
    (turns : Nat) (value : List Char) :
    replaceLoop pattern replacement turns value = value ∨
      c ∈ replaceLoop pattern replacement turns value := by
  induction turns generalizing value with
  | zero => exact .inl rfl
  | succ turns ih =>
    unfold replaceLoop
    split
    · exact .inl rfl
    next before here hfound =>
    have hvalue : value = before ++ here := (findFolded_eq_some hfound).1
    dsimp only
    split
    · exact .inr (by simp [hc])
    apply (ih (here.drop pattern.length)).imp
    · intro h
      rw [h, append_assoc, take_append_drop, ← hvalue]
    · exact mem_append_right _

/-- Masking does not turn the format of a dump into that of an image. -/
theorem sanitizeStr_ne_png {sanitizer : Sanitizer} : sanitizer.sanitizeStr "rgba" ≠ "png" := by
  have hreplace : ∀ (pattern replacement value : List Char), '[' ∈ replacement →
      replacePathPrefix value pattern replacement = value ∨
        '[' ∈ replacePathPrefix value pattern replacement := by
    intro pattern replacement value hc
    unfold replacePathPrefix
    split
    · exact .inl rfl
    · exact mem_replaceLoop hc ..
  have hhome : sanitizer.maskHome "rgba".toList = "rgba".toList ∨
      '[' ∈ sanitizer.maskHome "rgba".toList := by
    unfold Sanitizer.maskHome
    split
    · exact .inl rfl
    · exact hreplace _ _ _ (by decide)
  have huser : ∀ value, sanitizer.maskUser value = value ∨ '[' ∈ sanitizer.maskUser value := by
    intro value
    unfold Sanitizer.maskUser
    split
    · exact .inl rfl
    dsimp only
    split
    · exact .inr (by decide)
    · exact hreplace _ _ _ (by decide)
  intro heq
  have hlist : sanitizer.maskUser (sanitizer.maskHome "rgba".toList) = "png".toList := by
    rw [← heq]
    exact String.toList_ofList.symm
  have hbracket : '[' ∉ "png".toList := by decide
  rcases huser (sanitizer.maskHome "rgba".toList) with hsame | hmem
  · rw [hlist] at hsame
    rcases hhome with h | h
    · rw [← hsame] at h
      exact absurd h (by decide)
    · exact hbracket (hsame ▸ h)
  · exact hbracket (hlist ▸ hmem)

/-! ## What is listed -/

/-- A file that is there and registered, and not as a raw artifact. -/
def Listed (s : Folder) (name : String) (data : Bytes) : Prop :=
  s.files name = some data ∧ ∃ kind, (name, kind) ∈ s.registry.entries ∧ isRaw kind = false

namespace Listed

variable {s s' : Folder} {name other : String} {data : Bytes}

theorem abandoned {new} (h : Listed s name data)
    (hs : Abandoned new s s') : Listed s' name data := by
  obtain ⟨files, read, rfl, hspares⟩ := hs
  exact ⟨hspares.kept h.1, h.2⟩

/-- A file that is added under a free name takes nothing away. -/
theorem add (h : Listed s name data) (hfree : s.files other = none) (new : Bytes)
    (kind : ArtifactKind) : Listed (s.add other new kind) name data := by
  have hne : name ≠ other := by
    rintro rfl
    cases hfree.symm.trans h.1
  obtain ⟨hfile, kind', hkind, hraw⟩ := h
  exact ⟨(update_of_ne hne ..).trans hfile, kind', SortedMap.mem_insert_of_ne hkind hne, hraw⟩

theorem drops {paths} (h : Listed s name data) (hs : Drops paths s s') (hname : name ∉ paths) :
    Listed s' name data := by
  obtain ⟨hfile, kind, hkind, hraw⟩ := h
  exact ⟨(hs.files name hname).trans hfile, kind, hs.registry name hname kind hkind, hraw⟩

end Listed

section

variable (codec : ReportCodec) (encodePng : Bytes → Nat → Nat → Option Bytes) (s : Folder)

/-- What an entry names is there and registered, and an image is complete. -/
def Refers (attachment : Json) : Prop :=
  ∀ file, textOf "file" attachment = some file → ∃ data, s.files file = some data ∧
    file ∈ s.registry.keys ∧ (textOf "format" attachment = some "png" →
      ∃ rgba width height, encodePng rgba width height = some data)

/-- Every entry of the report in the directory does. -/
def NoDangling : Prop :=
  ∀ data report, s.files reportName = some data → codec.decode data = some report →
    ∀ attachment ∈ report.attachments, Refers encodePng s attachment

/-- References as the steps keep them. -/
structure AllGood (refs : List (String × Bool)) : Prop where
  listed : ∀ ref ∈ refs, ref.1 ≠ reportName ∧ ∃ data, Listed s ref.1 data ∧
    (ref.2 = true → ∃ rgba width height, encodePng rgba width height = some data)
  nodup : (refs.map Prod.fst).Nodup

/-- The report in the directory, if it can be read. -/
def Holding (report : StagedReport) : Prop :=
  ∃ data, s.files reportName = some data ∧ codec.decode data = some report

/-- What holds once the report has been written: the result names no other. -/
structure Settled : Prop where
  sound : ∀ report, Holding codec s report → AllGood encodePng s (references report.attachments)
  json : ∀ json, s.result.jsonPath = some json → json = reportName

end

section

variable {codec : ReportCodec} {encodePng : Bytes → Nat → Nat → Option Bytes}
  {s s' : Folder} {refs : List (String × Bool)} {name : String} {data : Bytes} {reliable : Bool}

namespace AllGood

theorem nil : AllGood encodePng s [] := ⟨by simp, nodup_nil⟩

theorem keep (h : AllGood encodePng s refs)
    (hkept : ∀ ref ∈ refs, ref.1 ≠ reportName → ∀ data, Listed s ref.1 data →
      Listed s' ref.1 data) : AllGood encodePng s' refs := by
  refine ⟨fun ref hmem => ?_, h.nodup⟩
  obtain ⟨hne, data, hlisted, himage⟩ := h.listed ref hmem
  exact ⟨hne, data, hkept ref hmem hne data hlisted, himage⟩

theorem perm (h : AllGood encodePng s refs) {refs'} (hperm : refs'.Perm refs) :
    AllGood encodePng s refs' :=
  ⟨fun ref hmem => h.listed ref (hperm.mem_iff.mp hmem),
    (hperm.map Prod.fst).nodup_iff.mpr h.nodup⟩

theorem of_append {refs'} (h : AllGood encodePng s (refs ++ refs')) : AllGood encodePng s refs :=
  ⟨fun ref hmem => h.listed ref (mem_append_left _ hmem),
    (nodup_append.mp (map_append ▸ h.nodup)).1⟩

/-- An image is also a file. -/
theorem demote {flag} (h : AllGood encodePng s ((name, flag) :: refs)) :
    AllGood encodePng s ((name, false) :: refs) := by
  have hall := forall_mem_cons.mp h.listed
  obtain ⟨hne, data, hlisted, -⟩ := hall.1
  exact ⟨forall_mem_cons.mpr ⟨⟨hne, data, hlisted, by simp⟩, hall.2⟩, h.nodup⟩

/-- A file that is added has a new name. -/
theorem add (kind : ArtifactKind) (flag : Bool) (h : AllGood encodePng s refs)
    (hfree : s.files name = none) (hname : name ≠ reportName) (hkind : isRaw kind = false)
    (himage : flag = true → ∃ rgba width height, encodePng rgba width height = some data) :
    AllGood encodePng (s.add name data kind) ((name, flag) :: refs) := by
  constructor
  · refine forall_mem_cons.mpr ⟨⟨hname, data, ?_, himage⟩, fun ref hmem => ?_⟩
    · exact ⟨s.setFile_same .., kind, SortedMap.mem_insert_self .., hkind⟩
    obtain ⟨hne, found, hlisted, hcomplete⟩ := h.listed ref hmem
    exact ⟨hne, found, hlisted.add hfree data kind, hcomplete⟩
  · refine nodup_cons.mpr ⟨fun hmem => ?_, h.nodup⟩
    obtain ⟨ref, href, rfl⟩ := mem_map.mp hmem
    obtain ⟨-, found, hlisted, -⟩ := h.listed ref href
    cases hfree.symm.trans hlisted.1

end AllGood

namespace Settled

theorem noDangling (h : Settled codec encodePng s) : NoDangling codec encodePng s := by
  intro data report hdata hreport attachment hmem file hfile
  have href : (file, decide (textOf "format" attachment = some "png")) ∈
      references report.attachments :=
    mem_filterMap.mpr ⟨attachment, hmem, by simp [reference, hfile]⟩
  obtain ⟨-, content, ⟨hcontent, kind, hkind, -⟩, himage⟩ :=
    (h.sound report ⟨data, hdata, hreport⟩).listed _ href
  exact ⟨content, hcontent, mem_map_of_mem hkind, by simpa using himage⟩

theorem keep (h : Settled codec encodePng s)
    (hreport : ∀ data, s'.files reportName = some data → s.files reportName = some data)
    (hkept : ∀ report, Holding codec s report → ∀ ref ∈ references report.attachments,
      ∀ data, Listed s ref.1 data → Listed s' ref.1 data)
    (hjson : s'.result.jsonPath = s.result.jsonPath) : Settled codec encodePng s' := by
  refine ⟨?_, hjson ▸ h.json⟩
  rintro report ⟨data, hdata, hdecode⟩
  have hholding : Holding codec s report := ⟨data, hreport data hdata, hdecode⟩
  exact (h.sound report hholding).keep fun ref hmem _ => hkept report hholding ref hmem

/-- Whatever could not be written, a report that is there stays. -/
theorem abandoned {new} (h : Settled codec encodePng s) (hdata : s.files reportName = some data)
    (hs : Abandoned new s s') : Settled codec encodePng s' := by
  have hkept := hs.kept
  refine h.keep (fun data' hdata' => ?_) (fun _ _ _ _ _ hl => hl.abandoned hs) (by rw [hkept.2.2])
  cases (hkept.1 reportName data hdata).symm.trans hdata'
  exact hdata

/-- Names that the report does not use may be dropped. -/
theorem drops {paths} (h : Settled codec encodePng s) (hs : Drops paths s s')
    (hunnamed : ∀ report, Holding codec s report → ∀ ref ∈ references report.attachments,
      ref.1 ∉ paths) : Settled codec encodePng s' :=
  h.keep (hs.gone reportName) (fun report hreport ref hmem _ hl =>
    hl.drops hs (hunnamed report hreport ref hmem)) hs.json

/-- A report whose references are good, if it is the one in the directory. -/
theorem of_report (report : StagedReport) (h : AllGood encodePng s (references report.attachments))
    (hdata : ∀ data, s.files reportName = some data → data = codec.encode report)
    (hjson : ∀ json, s.result.jsonPath = some json → json = reportName) :
    Settled codec encodePng s := by
  refine ⟨?_, hjson⟩
  rintro found ⟨data, hfile, hdecode⟩
  rw [hdata data hfile] at hdecode
  rwa [references_of_alike (codec.alike_attachments hdecode)]

end Settled

/-! ## Writing -/

section Report

variable {sanitizer : Sanitizer} {shots : List Screenshot}

/-- The references as they will be written. -/
def masked (sanitizer : Sanitizer) (attachments : List Json) : List (String × Bool) :=
  references (attachments.map sanitizer.sanitizeJsonValue)

/-- What the copied attachments are before the report is written. -/
structure Copied (encodePng : Bytes → Nat → Nat → Option Bytes) (s : Folder) : Prop where
  free : s.files reportName = none
  good : AllGood encodePng s (s.attachments.map fun attachment => (attachment.copiedPath, false))

/-- Masking leaves the names of the files of a report alone. -/
def Unmasked (sanitizer : Sanitizer) (s : Folder) (shots : List Screenshot) : Prop :=
  (∀ attachment ∈ s.attachments,
    sanitizer.sanitizeStr attachment.copiedPath = attachment.copiedPath) ∧
  ∀ i < shots.length, sanitizer.sanitizeStr (rgbaName i) = rgbaName i

theorem Shoots.allGood {entries all}
    (hnames : ∀ i < shots.length, sanitizer.sanitizeStr (rgbaName i) = rgbaName i)
    (hgood : AllGood encodePng s (masked sanitizer entries)) (h : Shoots shots s entries s' all) :
    AllGood encodePng s' (masked sanitizer all) := by
  induction h with
  | start => exact hgood
  | @shot s' all shot i _ hshot hfree ih =>
    have hentry : reference (sanitizer.sanitizeJsonValue (rgbaAttachment i shot)) =
        some (rgbaName i, false) := by
      have hfile : textOf "file" (sanitizer.sanitizeJsonValue (rgbaAttachment i shot)) =
          some (sanitizer.sanitizeStr (rgbaName i)) := rfl
      have hformat : textOf "format" (sanitizer.sanitizeJsonValue (rgbaAttachment i shot)) =
          some (sanitizer.sanitizeStr "rgba") := rfl
      rw [reference, hfile, hformat, hnames i (by simpa using snd_lt_of_mem_zipIdx hshot)]
      simp [sanitizeStr_ne_png]
    have hlist : masked sanitizer (all ++ [rgbaAttachment i shot]) =
        masked sanitizer all ++ [(rgbaName i, false)] := by
      simp [masked, references, hentry]
    rw [hlist]
    exact (ih.add _ false hfree (rgbaName_ne_reportName i) rfl (by simp)).perm
      (perm_append_singleton ..)
  | failed _ hs ih => exact ih.keep fun _ _ _ _ hl => hl.abandoned hs

section

variable {others : List (String × Json)} (h : Copied encodePng s)
  (hnames : Unmasked sanitizer s shots)
include h hnames

theorem Copied.masked_good :
    AllGood encodePng s (masked sanitizer (s.attachments.map formatAttachment)) := by
  have hentry : ∀ attachment ∈ s.attachments, reference (sanitizer.sanitizeJsonValue
      (formatAttachment attachment)) = some (attachment.copiedPath, false) := by
    intro attachment hmem
    rw [← hnames.1 attachment hmem]
    rfl
  have hlist : masked sanitizer (s.attachments.map formatAttachment) =
      s.attachments.map fun attachment => (attachment.copiedPath, false) := by
    rw [masked, references, map_map, filterMap_map, ← filterMap_eq_map]
    exact filterMap_congr hentry
  rw [hlist]
  exact h.good

theorem Wrote.settled
    (hs : Wrote codec sanitizer ⟨others, s.attachments.map formatAttachment⟩ shots s s') :
    Settled codec encodePng s' := by
  cases hs with
  | @written u all result hshoots hfree hjson =>
    have hall := hshoots.allGood hnames.2 (h.masked_good hnames)
    have hfile := u.setFile_same reportName
      (some (codec.encode (sanitizeReport sanitizer ⟨others, all⟩)))
    exact .of_report (sanitizeReport sanitizer ⟨others, all⟩)
      (hall.keep fun _ _ _ _ hl => hl.add hfree _ _)
      (fun data hdata => Option.some.inj (hdata.symm.trans hfile)) hjson
  | @failed u v all result hshoots hs hjson =>
    have hall := hshoots.allGood hnames.2 (h.masked_good hnames)
    exact .of_report (sanitizeReport sanitizer ⟨others, all⟩)
      (hall.keep fun ref _ _ data hl => (hl.abandoned hs : Listed v ref.1 data))
      (fun data hdata => (hs.report (hshoots.report_free h.free) hdata).2) hjson

end

end Report

/-! ## Copying -/

theorem attachmentName_ne_reportName {attachment nonce} :
    attachmentName attachment nonce ≠ reportName := by
  unfold attachmentName
  rw [String.append_assoc, String.append_assoc, String.append_assoc, String.append_assoc]
  exact append_ne_reportName rfl (by decide)

theorem does_copyAttachments {registered} (h : Copied encodePng s) :
    Keeps reliable s (copyAttachments registered) (Copied encodePng) := by
  induction registered generalizing s with
  | nil => exact .pure h
  | cons attachment rest ih =>
    refine .read reads_checkpoint h fun _ _ => ?_
    refine .read reads_uuid h fun nonce _ => ?_
    refine .read reads_uuid h fun nonce' _ => ?_
    generalize hname : attachmentName attachment nonce = name
    have hne : name ≠ reportName := hname ▸ attachmentName_ne_reportName
    apply (does_copyRegisteredAttachment _ name _).outcome
    · rintro ⟨size, warning⟩ _ ⟨hfree, all, -, -, rfl⟩
      have hreport : (s.copying name all all).files reportName = none := by
        rw [Folder.copying_files, update_of_ne hne.symm]
        exact h.free
      have hundone : Undone s (s.copying name all all) :=
        ⟨_, all, rfl, (Spares.refl _).update hfree fun _ _ => trivial⟩
      intro r s' hstep
      cases r with
      | error e =>
        rw [show s' = _ from hstep]
        exact ⟨hreport, h.good.keep fun _ _ _ _ hl => hl.abandoned hundone⟩
      | ok u =>
        obtain ⟨-, -, rfl⟩ := hstep
        rintro _ _ rfl
        refine ih ⟨hreport, ?_⟩
        have hgood : AllGood encodePng (s.add name all .attachment) _ :=
          h.good.add .attachment false hfree hne rfl (by simp)
        show AllGood encodePng _ (List.map _ (s.attachments ++ [_]))
        rw [map_append]
        exact (hgood.perm (perm_append_singleton ..)).keep fun _ _ _ _ => id
    · intro e s' habandoned
      have hcopied : Copied encodePng s' := by
        obtain ⟨aside, files, read, rfl, hspares⟩ := habandoned
        refine ⟨?_, h.good.keep fun _ _ _ _ hl => hl.abandoned ⟨_, _, rfl, hspares⟩⟩
        rcases hspares reportName with hsame | ⟨-, data, -, ⟨-, heq | ⟨-, heq⟩⟩ | ⟨-, heq⟩⟩
        · exact hsame.trans h.free
        · exact absurd heq.symm (hidden_quarantineName aside).ne_reportName
        · exact absurd heq.symm hne
        · exact absurd heq.symm (Hidden.ne_reportName ⟨_, rfl⟩)
      refine .read reads_timedOut hcopied fun late _ => ?_
      split
      · exact .throw hcopied
      · exact ih hcopied

theorem does_attachmentCopier {registered} (h : Copied encodePng s) :
    Keeps reliable s (attachmentCopier registered) (Copied encodePng) := by
  refine .read reads_checkpoint h fun _ _ => ?_
  split
  · exact .pure h
  · apply (does_copyAttachments h).bind
    exact fun _ s' hs' => .still reads_checkpoint (fun _ _ => hs') hs'

/-! ## Conversion and cleanup -/

/-- The dumps that are to be removed. -/
def dumps (converted : List ConvertedRgba) : List (String × Bool) :=
  converted.map fun c => (c.path, false)

/-- The loop: the entries so far and the rest are good, and no entry names a
dump that is to be removed. -/
theorem Converts.allGood {seen done converted} (h : Converts encodePng s seen done converted s')
    (hthere : s.files reportName ≠ none) {rest}
    (hgood : AllGood encodePng s (references (seen ++ rest))) :
    AllGood encodePng s' (references (done ++ rest) ++ dumps converted) := by
  induction h generalizing rest with
  | start => simpa [dumps] using hgood
  | kept _ hs ih =>
    rw [append_assoc] at hgood ⊢
    exact (ih hgood).keep fun _ _ _ _ hl => hl.abandoned hs
  | @image seen done converted attachment c png s' paths h himage hfree ih =>
    rw [append_assoc] at hgood ⊢
    have hname : c.pngPath ≠ reportName := by
      intro heq
      obtain ⟨data, hdata⟩ := Option.ne_none_iff_exists'.mp hthere
      cases (heq ▸ hfree).symm.trans (h.kept_there.1 _ data hdata)
    -- the dump goes to the end, and the image has a name of its own
    have hsplit : references (done ++ attachment :: rest) ++ dumps converted =
        references done ++ (c.path, decide (textOf "format" attachment = some "png")) ::
          (references rest ++ dumps converted) := by
      simp [references, reference, himage.file]
    have hnew : references (done ++ pngAttachment c.pngPath png.length attachment :: rest) ++
        dumps (converted ++ [c]) = references done ++ (c.pngPath, true) ::
          (references rest ++ dumps converted ++ [(c.path, false)]) := by
      simp [references, reference_pngAttachment _ _ himage.file, dumps]
    have hdump := ((hsplit ▸ ih hgood).perm perm_middle.symm).demote
    rw [singleton_append, hnew]
    have hgood := hdump.add .screenshotPng true hfree hname rfl fun _ => himage.complete
    refine (hgood.perm (perm_middle.trans (.cons _ ?_))).keep fun _ _ _ _ => id
    rw [← append_assoc]
    exact perm_append_singleton ..

theorem Converts.settled {seen done converted} (hs : Converts encodePng s seen done converted s')
    (h : Settled codec encodePng s)
    (hdata : s.files reportName = some data) : Settled codec encodePng s' := by
  have hkept := hs.kept_there
  refine h.keep (fun data' hdata' => ?_) (fun _ _ _ _ _ hl => ?_) hkept.2.2
  · cases (hkept.1 reportName data hdata).symm.trans hdata'
    exact hdata
  · obtain ⟨hfile, kind, hkind, hraw⟩ := hl
    exact ⟨hkept.1 _ _ hfile, kind, hkept.2.1 _ kind (by simp [hfile]) hkind, hraw⟩

theorem Rewrote.settled (h : Settled codec encodePng s) (hs : Rewrote codec encodePng s s') :
    Settled codec encodePng s' := by
  cases hs with
  | idle => exact h
  | stopped hdata hc hs =>
    exact (hc.settled h hdata).abandoned (hc.kept_there.1 _ _ hdata) hs
  | @replaced data report entries converted u s' hdata hdecode hc hdrops =>
    have hthere : s.files reportName ≠ none := by simp [hdata]
    have hgood := h.sound report ⟨data, hdata, hdecode⟩
    rw [← append_nil report.attachments] at hgood
    have hall := hc.allGood hthere hgood
    rw [append_nil] at hall
    have hsame : ∀ name data, name ≠ reportName → Listed u name data → Listed
        (u.setFile reportName (some (codec.encode ⟨report.others, entries⟩))) name data :=
      fun name data hne hl => ⟨(update_of_ne hne ..).trans hl.1, hl.2⟩
    have hreplaced := u.setFile_same reportName (some (codec.encode ⟨report.others, entries⟩))
    have hsettled : Settled codec encodePng
        (u.setFile reportName (some (codec.encode ⟨report.others, entries⟩))) :=
      .of_report ⟨report.others, entries⟩
        (hall.of_append.keep fun ref _ hne data => hsame ref.1 data hne)
        (fun data hdata => Option.some.inj (hdata.symm.trans hreplaced))
        (fun json hjson => h.json json (hc.kept_there.2.2.symm.trans hjson))
    refine hsettled.drops hdrops ?_
    rintro found ⟨content, hcontent, hfound⟩ ref href hpath
    cases hreplaced.symm.trans hcontent
    rw [references_of_alike (codec.alike_attachments hfound)] at href
    have hnodup := hall.nodup
    rw [map_append, nodup_append] at hnodup
    refine hnodup.2.2 ref.1 (mem_map_of_mem href) ref.1 ?_ rfl
    simpa [dumps] using hpath

theorem settled_of_drops (h : Settled codec encodePng s) (hs : Drops (rawNames s) s s') :
    Settled codec encodePng s' := by
  refine h.drops hs fun report hr ref href hpath => ?_
  -- a named file is registered with another kind
  obtain ⟨-, data, ⟨-, kind, hkind, hraw⟩, -⟩ := (h.sound report hr).listed ref href
  obtain ⟨⟨_, kind'⟩, hmem, rfl⟩ := mem_map.mp hpath
  obtain ⟨hkind', hraw'⟩ := mem_filter.mp hmem
  have heq := inj_on_of_nodup_map s.registry.keys_nodup hkind' hkind rfl
  cases heq
  cases hraw.symm.trans hraw'

/-! ## The steps of a report -/

section

variable (codec : ReportCodec) (sanitizer : Sanitizer)
  (encodePng : Bytes → Nat → Nat → Option Bytes) (reliable : Bool)
  (allowed : Folder → List Screenshot → Prop)

/-- The states between the steps, before and after the report is written. Each
step may have ended in any way. -/
inductive Reached : Bool → Folder → Prop
  | fresh {s : Folder} : s.attachments = [] → s.files reportName = none → Reached false s
  | copied {s s' : Folder} {registered result} : Reached false s →
    Run (stagingStep reliable) (attachmentCopier registered).run s result s' → Reached false s'
  | written {s s' : Folder} {others shots result} : Reached false s → allowed s shots →
    Run (stagingStep reliable) (reportStage codec sanitizer
      ⟨others, s.attachments.map formatAttachment⟩ shots).run s result s' → Reached true s'
  | converted {s s' : Folder} {result} : Reached true s →
    Run (stagingStep reliable) (pngConverter encodePng codec).run s result s' → Reached true s'
  | cleaned {s s' : Folder} {result} : Reached true s →
    Run (stagingStep reliable) rawCleanup.run s result s' → Reached true s'

end

/-- What a run ends in, if both ends are alike. -/
theorem ends_of_does {α : Type} {x P} {result : Except String α}
    (h : Keeps reliable s x P) (hrun : Run (stagingStep reliable) x.run s result s') : P s' := by
  have hend := h.run hrun
  cases result <;> exact hend

theorem Reached.invariant {sanitizer : Sanitizer} {after : Bool}
    (h : Reached codec sanitizer encodePng reliable (Unmasked sanitizer) after s) :
    if after then Settled codec encodePng s else Copied encodePng s := by
  induction h with
  | fresh hnone hfree => exact ⟨hfree, by rw [hnone]; exact .nil⟩
  | copied _ hrun ih => exact ends_of_does (does_attachmentCopier ih) hrun
  | written _ hnames hrun ih => exact (ends_of_does does_reportStage hrun).settled ih hnames
  | converted _ hrun ih => exact (ends_of_does (does_pngConverter ih.json) hrun).settled ih
  | cleaned _ hrun ih => exact settled_of_drops ih (ends_of_does does_rawCleanup hrun)

/-- Whatever is cancelled or fails, and whatever is copied, shot and converted,
every file that an entry of `report.json` names is in the staging directory and
registered, and an entry names an image only when the image is complete. The
file names must not be among the texts that masking changes. -/
theorem no_dangling_attachment {sanitizer : Sanitizer} {after : Bool}
    (h : Reached codec sanitizer encodePng reliable (Unmasked sanitizer) after s) :
    NoDangling codec encodePng s := by
  have hinvariant := h.invariant
  cases after with
  | true => exact hinvariant.noDangling
  | false =>
    intro data report hdata
    cases hinvariant.free.symm.trans hdata

end

/-! ## A report from its first stage to the cleanup -/

namespace PlainReport

/-- The document as it is. -/
def split : Json → Option StagedReport
  | .object members =>
    match members.reverse with
    | (_, .array attachments) :: others => some ⟨others.reverse, attachments⟩
    | _ => none
  | _ => none

def codec : ReportCodec where
  encode report := Serial.json.put report.document
  decode data := (Serial.json.read data).bind split
  decode_encode := by
    intro report found h
    rw [Serial.read_put, StagedReport.document, Option.bind_some, split, reverse_append] at h
    cases h
    show Alike (StagedReport.mk report.others.reverse.reverse report.attachments).document _
    rw [reverse_reverse]
    exact .refl _

/-- Only the first of the two screenshots below can be encoded. -/
def encodePng (rgba : Bytes) (_ _ : Nat) : Option Bytes :=
  if rgba = [1, 2, 3, 4] then some [137, 80] else none

def shots : List Screenshot := [⟨[1, 2, 3, 4], 1, 1, 0, 0⟩, ⟨[5, 6, 7, 8], 1, 1, 0, 0⟩]

/-- The threads of the first stage. -/
def folder : Folder :=
  ⟨update (fun _ => none) "threads.txt" (some [35]),
    SortedMap.empty.insert "threads.txt" .threadRaw, [], ⟨["threads.txt"], none, none⟩, []⟩

section

variable (sanitizer : Sanitizer)

def copied : Folder :=
  ((attachmentCopier [⟨"settings", "/tmp/settings.json"⟩]).run.exec BusyFile.handle folder).2

def written : Folder := ((reportStage codec sanitizer
  ⟨[], copied.attachments.map formatAttachment⟩ shots).run.exec BusyFile.handle copied).2

def converted : Folder := ((pngConverter encodePng codec).run.exec BusyFile.handle
  (written sanitizer)).2

def cleaned : Except String Unit × Folder := rawCleanup.run.exec BusyFile.handle
  (converted sanitizer)

theorem reached {allowed : Folder → List Screenshot → Prop} (hallowed : allowed copied shots) :
    Reached codec sanitizer encodePng false allowed true (cleaned sanitizer).2 :=
  have hexec {α : Type} (x : Task α) (s : Folder) := Run.of_exec BusyFile.handle_step x.run s
  .cleaned (.converted (.written (.copied (.fresh rfl rfl) (hexec _ _)) hallowed (hexec _ _))
    (hexec _ _)) (hexec _ _)

end

end PlainReport

open PlainReport

/-- One screenshot is converted, the other is not, and the raw threads cannot be
removed. -/
theorem converted_report_there :
    (cleaned ⟨none, none⟩).1.toOption = none ∧
    (cleaned ⟨none, none⟩).2.files "screenshot-000.png" = some [137, 80] ∧
    (cleaned ⟨none, none⟩).2.files "screenshot-000.rgba" = none ∧
    NoDangling codec encodePng (cleaned ⟨none, none⟩).2 :=
  ⟨by decide +kernel, by decide +kernel, by decide +kernel, no_dangling_attachment
    (reached _
      ⟨fun _ _ => Sanitizer.sanitizeStr_unknown _, fun _ _ => Sanitizer.sanitizeStr_unknown _⟩)⟩

/-- A user with the name of a file: the entry names `[USERNAME]`, which is not
there. -/
theorem masked_name_dangles : ∃ s, Reached codec
        (.fromIdentity (some "screenshot-000.rgba") none) encodePng false
        (fun _ _ => True) true s ∧ ¬ NoDangling codec encodePng s := by
  refine ⟨_, reached _ trivial, fun h => ?_⟩
  generalize hs : (cleaned (.fromIdentity (some "screenshot-000.rgba") none)).2 = s at h
  have hfiles : ((s.files reportName).bind codec.decode).map (fun report =>
      report.attachments.map (textOf "file")) = some [some "attachment-settings-0.json",
        some "[USERNAME]", some "screenshot-001.rgba"] := hs ▸ by decide +kernel
  have hmissing : s.files "[USERNAME]" = none := hs ▸ by decide +kernel
  obtain ⟨report, hreport, hnames⟩ := Option.map_eq_some_iff.mp hfiles
  obtain ⟨data, hdata, hdecode⟩ := Option.bind_eq_some_iff.mp hreport
  have hmem : some "[USERNAME]" ∈ report.attachments.map (textOf "file") := by
    rw [hnames]
    decide
  obtain ⟨attachment, hattachment, hfile⟩ := mem_map.mp hmem
  obtain ⟨content, hcontent, -⟩ := h data report hdata hdecode attachment hattachment _ hfile
  cases hmissing.symm.trans hcontent

end CrashMonitor.Staging
