import CrashMonitor.Store.RecoveryScope
import CrashMonitor.Store.Codec
import CrashMonitor.Store.Served

/-!
# Which manifests recovery accepts

Recovery run alone on a staging directory. The registry built from a manifest,
the listing of the directory and the sizes of the artifacts are three separate
checks; together they say that the directory holds the manifest and exactly
the artifacts it lists. Anything else is left as it was found.
-/

namespace CrashMonitor.Store

open Lib Interleave List

/-- A report directory a manifest describes exactly, by names that are single
components. -/
def Acceptable (codec : Codec) (id : ReportId) (content : Content) : Prop :=
  Complete codec id content ∧ ∀ bytes manifest, content manifestFileName = some bytes →
      codec.decode bytes = some manifest → ∀ artifact ∈ manifest.artifacts, NormalName artifact.path

/-- The staging directory of a report can be recovered. -/
def Recoverable (codec : Codec) (outputRoot : Path) (id : ReportId) (s : World) : Prop :=
  ∃ d, s.names outputRoot (stagingName id) = some d ∧ Acceptable codec id (s.files d)

/-- File names are single components, as the operating system has them. -/
def World.NormalFiles (s : World) : Prop :=
  ∀ d name, (s.files d name).isSome = true → NormalName name

/-! ## Acceptance -/

section Acceptance

variable {conditions : Conditions} {caller : Caller} {s : World} {codec : Codec}
  {outputRoot : Path} {id : ReportId} {manifest : ReportManifest} {registered : Registry}
  {bytes : Bytes}

/-- A manifest that passes its checks describes the directory. -/
theorem Validated.recoverable {d} (h : Validated s outputRoot (stagingName id) registered
      manifest.artifacts bytes d) (hfiles : s.NormalFiles)
    (hdecode : codec.decode bytes = some manifest)
    (hversion : manifest.schemaVersion = manifestSchemaVersion)
    (hid : manifest.reportId = id) (hregistry : manifestRegistry manifest = .ok registered) :
    Recoverable codec outputRoot id s := by
  obtain ⟨hkeys, hnodup⟩ := manifestRegistry_ok hregistry
  refine ⟨d, h.named, ?_, ?_⟩
  · apply Complete.intro h.manifest hdecode hversion hid hnodup _ h.sizes
    intro name hne hsome
    exact (hkeys name).mp ((h.exact name).mpr ⟨hsome, hne⟩)
  intro bytes' manifest' hbytes' hdecode' artifact hartifact
  cases h.manifest.symm.trans hbytes'
  cases hdecode.symm.trans hdecode'
  have hmem : artifact.path ∈ registered.keys := (hkeys _).mpr (mem_map_of_mem hartifact)
  exact hfiles d artifact.path ((h.exact _).mp hmem).1

/-- A directory that cannot be recovered is only looked at. -/
theorem reads_recoverLocked (hfiles : s.NormalFiles) (hnot : ¬ Recoverable codec outputRoot id s) :
    Reads (storeStep conditions) s (recoverLocked codec outputRoot caller (stagingName id) id)
      fun recovered => recovered = false := by
  apply (reads_readManifestFile).bind
  intro found _
  split
  · exact .pure rfl
  split
  · exact .throw
  next manifest hdecode =>
  split
  · exact .throw
  next hidentity =>
  rw [not_or, not_not, not_not] at hidentity
  split
  · exact .throw
  refine .bind (.done fun _ h => h) fun registered hregistry => ?_
  apply (reads_revalidatePreparedReport).bind
  rintro _ ⟨d, hvalidated⟩
  exact absurd (hvalidated.recoverable hfiles hdecode hidentity.1 hidentity.2 hregistry) hnot

/-- The same names and the same files. -/
def World.SameStore (s s' : World) : Prop := s'.names = s.names ∧ s'.files = s.files

theorem World.SameStore.recoverable {s'} (h : s.SameStore s') :
    Recoverable codec outputRoot id s' ↔ Recoverable codec outputRoot id s := by
  unfold Recoverable
  rw [h.1, h.2]

theorem World.SameStore.normalFiles {s'} (h : s.SameStore s')
    (hfiles : s.NormalFiles) : s'.NormalFiles := by
  unfold World.NormalFiles
  rw [h.2]
  exact hfiles

/-- Taking the lock of a directory leaves the store as it is. -/
theorem ensures_tryLockReportDirectory {root directory} :
    Ensures (storeStep conditions) s (tryLockReportDirectory caller root directory).run
      fun _ s' => s.SameStore s' := by
  apply Ensures.attempt
  · intro r s' hstep
    have heffect := hstep.2.2
    cases r with
    | error e => exact heffect ▸ ⟨rfl, rfl⟩
    | ok d => exact heffect.2 ▸ ⟨rfl, rfl⟩
  · intro d s' hs
    apply Ensures.attempt
    · exact (reads_probe _).mapError.keeps hs
    intro _ s' hs
    apply Ensures.attempt
    · apply Ensures.seq (Q := fun _ s' => s.SameStore s')
      · intro r s'' hstep
        have heffect := hstep.2.2
        cases r with
        | error e => exact heffect ▸ hs
        | ok owner =>
          cases owner with
          | none => exact heffect.2 ▸ hs
          | some t =>
            obtain ⟨-, -, rfl⟩ := heffect
            exact hs
      · intro result s'' hs
        cases result <;> exact hs
    · intro owner s'' hs
      split <;> exact hs

/-- A directory that cannot be recovered stays where it is and as it is. -/
theorem ensures_recoverStaging (hfiles : s.NormalFiles)
    (hnot : ¬ Recoverable codec outputRoot id s) : Ensures (storeStep conditions) s
      (recoverStaging codec outputRoot caller (stagingName id) id).run
      fun result s' => result ≠ .ok true ∧ s.SameStore s' := by
  apply (ensures_tryLockReportDirectory).seq
  intro locked s' hs
  cases locked with
  | error e => exact ⟨by simp, hs⟩
  | ok found =>
    cases found with
    | none => exact ⟨by simp, hs⟩
    | some lock =>
      obtain ⟨t, d⟩ := lock
      have hbody : Reads (storeStep conditions) s'
          (recoverLocked codec outputRoot caller (stagingName id) id) fun b => b = false :=
        reads_recoverLocked (hs.normalFiles hfiles) fun h => hnot (hs.recoverable.mp h)
      apply (Achieves.outcome hbody).seq
      rintro result s'' ⟨rfl, hresult⟩
      -- the lock is dropped on every path
      have hunlock : Achieves (storeStep conditions) s'' (unlockDirectory caller t d)
          fun _ s' => s.SameStore s' := by
        apply Achieves.always
        intro _ s' hstep
        have hs' : s' = if s''.locks d = some t then s''.setLock d none else s'' := hstep.2.2
        rw [hs']
        split <;> exact hs
      apply hunlock.seq
      intro _ s' hs'
      refine ⟨fun hrecovered => ?_, hs'⟩
      exact absurd (hresult true hrecovered) (by simp)

theorem ensures_recoverPreparedEntry {name kind} (hfiles : s.NormalFiles)
    (hnot : ∀ id, name = stagingName id → ¬ Recoverable codec outputRoot id s) :
    Ensures (storeStep conditions) s (recoverPreparedEntry codec outputRoot caller name kind).run
      fun result s' => result ≠ .ok true ∧ s.SameStore s' := by
  apply reads_deadlineElapsed.seq fun e => ⟨by simp, rfl, rfl⟩
  intro elapsed _
  split
  · exact ⟨by simp, rfl, rfl⟩
  apply (reads_probe _).mapError.seq fun e => ⟨by simp, rfl, rfl⟩
  intro _ _
  split
  · exact ⟨by simp, rfl, rfl⟩
  split
  · exact ⟨by simp, rfl, rfl⟩
  next id hid =>
  have hname := eq_stagingName hid
  rw [hname]
  exact ensures_recoverStaging hfiles (hnot id hname)

/-! ## The whole root -/

section Root

variable (hfiles : s.NormalFiles) (hnot : ∀ id, ¬ Recoverable codec outputRoot id s)
include hfiles hnot

theorem achieves_recoverEntry {name kind} : Achieves (storeStep conditions) s
      (recoverEntry codec outputRoot caller name kind)
      fun count s' => count = 0 ∧ s.SameStore s' := by
  apply (Achieves.outcome (reads_probe _)).bind
  rintro read _ ⟨rfl, -⟩
  split
  · exact .pure ⟨rfl, rfl, rfl⟩
  apply (Achieves.outcome (ensures_recoverPreparedEntry hfiles fun id _ => hnot id)).bind
  rintro result s' ⟨hresult, hsame⟩
  split
  · exact absurd rfl hresult
  · exact .pure ⟨rfl, hsame⟩

/-- By induction on the listing; the store is the same before each entry. -/
theorem achieves_recoverEntries (listing : List (String × EntryKind)) (inspected recovered : Nat)
    {s'} (hs : s.SameStore s') : Achieves (storeStep conditions) s'
      (recoverEntries codec outputRoot caller listing inspected recovered)
      fun total s'' => total = recovered ∧ s.SameStore s'' := by
  induction listing generalizing inspected s' with
  | nil => exact .pure ⟨rfl, hs⟩
  | cons entry rest ih =>
    rw [recoverEntries]
    split
    · exact .pure ⟨rfl, hs⟩
    have helapsed : Achieves (storeStep conditions) s' (deadlineElapsed caller)
        fun _ s'' => s'' = s' := .always fun _ _ hstep => hstep.2.2
    have hentry : Achieves (storeStep conditions) s'
        (recoverEntry codec outputRoot caller entry.1 entry.2)
        fun count s'' => count = 0 ∧ s'.SameStore s'' :=
      achieves_recoverEntry (hs.normalFiles hfiles) fun id h => hnot id (hs.recoverable.mp h)
    apply helapsed.bind
    rintro elapsed _ rfl
    split
    · exact .pure ⟨rfl, hs⟩
    apply hentry.bind
    rintro _ s'' ⟨rfl, hs'⟩
    exact ih _ ⟨hs'.1.trans hs.1, hs'.2.trans hs.2⟩

theorem ensures_recoverPreparedReports : Ensures (storeStep conditions) s
      (recoverPreparedReports codec outputRoot caller).run
      fun result s' => (∀ n, result = .ok n → n = 0) ∧ s.SameStore s' := by
  apply (reads_probe _).mapError.seq fun e => ⟨by simp, rfl, rfl⟩
  intro _ _
  have hlist : Reads (storeStep conditions) s (listRoot caller outputRoot) fun _ => True := by
    apply reads_call
    intro r s' heffect
    cases r with
    | error e => exact ⟨heffect, fun _ _ => trivial⟩
    | ok listing => exact ⟨heffect.2.2, fun _ _ => trivial⟩
  apply hlist.mapError.seq fun e => ⟨by simp, rfl, rfl⟩
  intro listing _
  apply Ensures.mono (achieves_recoverEntries hfiles hnot listing 0 0 ⟨rfl, rfl⟩)
  rintro _ s' ⟨total, rfl, rfl, hsame⟩
  refine ⟨?_, hsame⟩
  rintro n ⟨⟩
  rfl

end Root

end Acceptance

/-! ## Recovery -/

/-- Recovery of an entry stays in the staging directory it works on, in the two
roots and at the destination; it moves the directory to its own id in the output
root or in a direct sibling, or contains it again when the checks that follow
fail; and it does anything only if the manifest describes the directory. The
recovery of a root is made of these, and does nothing if no manifest does. -/
theorem recovery_confined (codec : Codec) (outputRoot : Path) (caller : Caller)
    (name : String) (kind : EntryKind) (verified : Bool) : (∀ trace result,
      (recoverPreparedEntry codec outputRoot caller name kind).run.Trace trace result →
      (∀ e ∈ trace, recoveryAnswer verified e.op e.answer) →
        StaysInScope outputRoot name verified trace) ∧ (∀ conditions s result s', s.NormalFiles →
      Run (storeStep conditions)
        (recoverPreparedEntry codec outputRoot caller name kind).run s result s' →
      result = .ok true ∨ ¬ s.SameStore s' →
        ∃ id, name = stagingName id ∧ Recoverable codec outputRoot id s) ∧
    (∀ trace result, (recoverPreparedReports codec outputRoot caller).run.Trace trace result →
      (∀ e ∈ trace, recoveryAnswer verified e.op e.answer) →
        StaysInRoot outputRoot verified trace) ∧
    (∀ conditions s result s', s.NormalFiles → Run (storeStep conditions)
        (recoverPreparedReports codec outputRoot caller).run s result s' →
      (∃ n, result = .ok (n + 1)) ∨ ¬ s.SameStore s' →
        ∃ id, Recoverable codec outputRoot id s) := by
  refine ⟨?_, ?_, ?_, ?_⟩
  · intro trace result htrace hanswers
    exact ((confines_recoverPreparedEntry codec outputRoot caller name kind verified).trace
      htrace hanswers).2
  · intro conditions s result s' hfiles hrun hdone
    by_contra hnot
    have hrefused : ∀ id, name = stagingName id → ¬ Recoverable codec outputRoot id s :=
      fun id hname h => hnot ⟨id, hname, h⟩
    obtain ⟨hresult, hsame⟩ := (ensures_recoverPreparedEntry hfiles hrefused).run hrun
    rcases hdone with hrecovered | hchanged
    · exact hresult hrecovered
    · exact hchanged hsame
  · intro trace result htrace hanswers
    exact ((confines_recoverPreparedReports codec outputRoot caller verified).trace
      htrace hanswers).2
  · intro conditions s result s' hfiles hrun hdone
    by_contra hnot
    have hrefused : ∀ id, ¬ Recoverable codec outputRoot id s := fun id h => hnot ⟨id, h⟩
    obtain ⟨hresult, hsame⟩ := (ensures_recoverPreparedReports hfiles hrefused).run hrun
    rcases hdone with ⟨n, hrecovered⟩ | hchanged
    · exact absurd (hresult _ hrecovered) (by simp)
    · exact hchanged hsame

/-! ## A prepared report -/

namespace PreparedReport

def report : ReportId := ⟨"00000000000000000000000000000001", by decide⟩
def root : Path := ["data", "crashes"]
def caller : Caller := ⟨0, .recovery⟩

def manifest : ReportManifest :=
  { ReportManifest.plain report with
    destination := .sibling "sent"
    artifacts := [⟨"report.json", .report, 2⟩] }

def files : List (String × Bytes) :=
  [(manifestFileName, plainCodec.encode manifest), ("report.json", [123, 125])]

def known : List String :=
  [stagingName report, report.text, quarantineName "a", manifestFileName, "report.json"]

theorem known_nodup : known.Nodup := by decide +kernel

theorem normalName_of_mem_known {name} (h : name ∈ known) : NormalName name := by
  simp only [known, mem_cons, not_mem_nil, or_false] at h
  rcases h with rfl | rfl | rfl | rfl | rfl
  all_goals constructor <;> decide +kernel

/-- A report that was prepared and not published. -/
def world : ServedWorld known :=
  ⟨.staged root (stagingName report) files fun _ => none,
    supported_staged (by decide +kernel) (by simp [files, known])⟩

def program : Call Bool :=
  recoverPreparedEntry plainCodec root caller (stagingName report) .directory

/-- Recovery of the root that holds it. -/
def recovery : Call Nat := recoverPreparedReports plainCodec root caller

section

variable (broken : Bool)

/-- A system on which every call of recovery succeeds, but perhaps the look at
the published entry. -/
def handle : (o : storeSig.Op) → ServedWorld known → storeSig.Res o × ServedWorld known :=
  served known_nodup broken

/-- How recovery ends, and in which state. -/
def final : Except String Bool × ServedWorld known := program.run.exec (handle broken) world

theorem run : Run (storeStep fun _ _ _ _ => True) program.run world.1 (final broken).1
    (final broken).2.1 := by
  unfold final handle
  exact run_served known_nodup broken program.run world

theorem recoveryAnswer_handle {o s} : recoveryAnswer false o (handle broken o s).1 := by
  obtain ⟨who, o⟩ := o
  cases o with
  | listDirectory root name =>
    intro names hnames n hn
    simp only [handle, served, serve] at hnames
    cases hname : s.1.names root name with
    | none =>
      rw [hname] at hnames
      cases hnames
    | some d =>
      rw [hname] at hnames
      cases hnames
      exact normalName_of_mem_known (mem_filter.mp hn).1
  | verifyEntry | verifyPrivate =>
    intro h
    cases h
  | _ => trivial

theorem recoveryAnswer_of_mem_log {α} {x : Prog storeSig α} {e}
    (he : e ∈ x.log (handle broken) world) : recoveryAnswer false e.op e.answer := by
  obtain ⟨s, hanswer⟩ := Prog.answer_of_mem_log he
  rw [hanswer]
  exact recoveryAnswer_handle broken

end

end PreparedReport

open PreparedReport

/-- With every call succeeding, the report is published under its id in the
sibling root. -/
theorem prepared_report_recovered :
    StaysInScope root (stagingName report) false (program.run.log (handle false) world) ∧
    StaysInRoot root false (recovery.run.log (handle false) world) ∧
    (∃ id, stagingName report = stagingName id ∧ Recoverable plainCodec root id world.1) ∧
    (final false).2.1.names ["data", "sent"] report.text = some 1 := by
  have htheorem := recovery_confined plainCodec root caller (stagingName report) .directory false
  refine ⟨?_, ?_, ?_, by decide +kernel⟩
  · apply htheorem.1 _ _ (Prog.trace_log (handle false) program.run world)
    exact fun e => recoveryAnswer_of_mem_log false
  · apply htheorem.2.2.1 _ _ (Prog.trace_log (handle false) recovery.run world)
    exact fun e => recoveryAnswer_of_mem_log false
  · apply htheorem.2.1 _ _ _ _ _ (run false)
    · left
      decide +kernel
    · intro d name hsome
      exact normalName_of_mem_known (world.2.files d name hsome)

/-- When the published entry cannot be looked at, the directory is set aside: it
ends under another name than the id of its report. -/
theorem recovered_report_set_aside :
    Run (storeStep fun _ _ _ _ => True) program.run world.1 (final true).1 (final true).2.1 ∧
    world.1.names root (stagingName report) = some 1 ∧
    (final true).2.1.names ["data", "sent"] (quarantineName "a") = some 1 ∧
    quarantineName "a" ≠ report.text := by
  refine ⟨run true, by decide +kernel, by decide +kernel, ?_⟩
  exact (text_ne_quarantineName report "a").symm

end CrashMonitor.Store
