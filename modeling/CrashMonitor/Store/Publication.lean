import CrashMonitor.Store.Transaction
import CrashMonitor.Lib.Alone

/-!
# What a successful commit has published

A commit run alone, with any of its system calls failing. Whatever happened
before, the last validation lists the staging directory against the sealed
registry, and the directory is then published as it is. So a commit that
returns a report has put every registered artifact under the report's name.
-/

namespace CrashMonitor.Store

open Lib Interleave Yields List

/-! ## What the checks read -/

section Reading

variable {conditions : Conditions} {caller : Caller} {s : World} {α : Type}

theorem reads_call {o} {f : o.Res → Except String α} {Q}
    (h : ∀ r s', effect caller s o r s' → s' = s ∧ ∀ a, f r = .ok a → Q a) :
    Reads (storeStep conditions) s
      (.mk (.call (S := storeSig) (caller, o) fun r => .ret (f r)) : Call α) Q :=
  fun r s' hstep => h r s' hstep.2.2

theorem reads_probe (what : String) :
    Reads (storeStep conditions) s (probe caller what) fun _ => True :=
  reads_call fun _ _ heffect => ⟨heffect, fun _ _ => trivial⟩

theorem reads_deadlineElapsed :
    Reads (storeStep conditions) s (deadlineElapsed caller) fun _ => True :=
  reads_call fun _ _ heffect => ⟨heffect, fun _ _ => trivial⟩

theorem reads_ensureBeforeDeadline {deadline} :
    Reads (storeStep conditions) s (ensureBeforeDeadline caller deadline) fun _ => True := by
  unfold ensureBeforeDeadline
  split
  · apply reads_deadlineElapsed.bind
    intro elapsed _
    split
    · exact .throw
    · exact .pure trivial
  · exact .pure trivial

variable {root : Path} {directory : String} {d : Nat}

theorem reads_fileSize (hd : s.names root directory = some d) (name : String) :
    Reads (storeStep conditions) s (fileSize caller root directory name)
      fun size => ∃ data, s.files d name = some data ∧ data.length = size := by
  apply reads_call
  intro r s' heffect
  cases r with
  | error e => exact ⟨heffect, fun a ha => by cases ha⟩
  | ok size =>
    obtain ⟨d', data, hname, hfile, hsize, hs⟩ := heffect
    have hsame : d' = d := Option.some.inj (hname.symm.trans hd)
    refine ⟨hs, fun a ha => ?_⟩
    cases ha
    exact ⟨data, hsame ▸ hfile, hsize.symm⟩

theorem reads_listDirectory (hd : s.names root directory = some d) :
    Reads (storeStep conditions) s (listDirectory caller root directory)
      fun names => ∀ name, (s.files d name).isSome = true ↔ name ∈ names := by
  apply reads_call
  intro r s' heffect
  cases r with
  | error e => exact ⟨heffect, fun a ha => by cases ha⟩
  | ok listing =>
    obtain ⟨d', hname, _, hlisting, hs⟩ := heffect
    have hsame : d' = d := Option.some.inj (hname.symm.trans hd)
    refine ⟨hs, fun a ha => ?_⟩
    cases ha
    exact hsame ▸ hlisting

/-- What is read as a manifest is the file of that name. -/
theorem reads_readManifestFile {root} {directory : String} :
    Reads (storeStep conditions) s (readManifestFile caller root directory)
      fun found => ∃ d, s.names root directory = some d ∧ s.files d manifestFileName = found := by
  have hread : Reads (storeStep conditions) s (readFile caller root directory manifestFileName)
      fun data => ∃ d, s.names root directory = some d ∧ s.files d manifestFileName = data := by
    apply reads_call
    intro r s' heffect
    cases r with
    | error e => exact ⟨heffect, fun a ha => by cases ha⟩
    | ok data =>
      obtain ⟨d, hname, hdata, hs⟩ := heffect
      refine ⟨hs, fun a ha => ?_⟩
      cases ha
      exact ⟨d, hname, hdata.symm⟩
  apply hread.mapError.bind
  intro data hdata
  split
  · exact .pure hdata
  split
  · exact .throw
  · exact .pure hdata

section

variable (hd : s.names root directory = some d)
include hd

/-- A scan collects every name of the listing but the manifest's. -/
theorem reads_scanEntries (maxEntries : Nat)
    (deadline : Bool) (names : List String) (inspected : Nat)
    (actual : SortedMap String Nat) (sawManifest : Bool) : Reads (storeStep conditions) s
      (scanEntries caller root directory true maxEntries deadline names inspected actual
        sawManifest)
      fun found => ∀ name, name ∈ found.1.keys ↔
        name ∈ actual.keys ∨ name ∈ names ∧ name ≠ manifestFileName := by
  induction names generalizing inspected actual sawManifest with
  | nil => exact .pure fun name => by simp
  | cons file rest ih =>
    apply (reads_ensureBeforeDeadline).bind
    intro _ _
    split
    · exact .throw
    apply (reads_probe _).mapError.bind
    intro _ _
    apply (reads_fileSize hd file).mapError.bind
    intro size _
    by_cases hmanifest : file = manifestFileName
    · simp only [hmanifest, Bool.true_and, decide_true, if_true]
      apply (ih _ _ _).mono
      intro found hfound name
      rw [hfound name, mem_cons]
      tauto
    · simp only [hmanifest, Bool.true_and, decide_false, Bool.false_eq_true, if_false]
      apply (ih _ _ _).mono
      intro found hfound name
      rw [hfound name, SortedMap.mem_keys_insert, mem_cons]
      constructor
      · rintro ((rfl | hold) | ⟨hrest, hne⟩)
        · exact .inr ⟨.inl rfl, hmanifest⟩
        · exact .inl hold
        · exact .inr ⟨.inr hrest, hne⟩
      · rintro (hold | ⟨rfl | hrest, hne⟩)
        · exact .inl (.inr hold)
        · exact .inl (.inl rfl)
        · exact .inr ⟨hrest, hne⟩

/-- The registered names are the files of the directory. -/
theorem reads_validateExactDirectoryBounded
    {registered maxEntries deadline} : Reads (storeStep conditions) s
      (validateExactDirectoryBounded caller root directory registered true maxEntries deadline)
      fun _ => ∀ name, name ∈ registered.keys ↔
        (s.files d name).isSome = true ∧ name ≠ manifestFileName := by
  apply (reads_listDirectory hd).mapError.bind
  intro listing hlisting
  apply (reads_scanEntries hd maxEntries deadline listing 0 .empty false).bind
  intro found hfound
  dsimp only
  split
  · exact .throw
  next hkeys =>
  rw [not_not] at hkeys
  split
  · exact .throw
  refine .pure fun name => ?_
  rw [hkeys, hfound name, hlisting name]
  simp [SortedMap.keys, SortedMap.empty]

/-- Every artifact has its recorded size. -/
theorem reads_validateManifestSizes {deadline artifacts} : Reads (storeStep conditions) s
      (validateManifestSizes caller root directory deadline artifacts)
      fun _ => ∀ artifact ∈ artifacts, ∃ data,
        s.files d artifact.path = some data ∧ data.length = artifact.size := by
  induction artifacts with
  | nil => exact .pure fun artifact hmem => by cases hmem
  | cons artifact rest ih =>
    apply (reads_ensureBeforeDeadline).bind
    intro _ _
    apply (reads_fileSize hd artifact.path).mapError.bind
    intro size hsize
    split
    · exact .throw
    next heq =>
    rw [not_not] at heq
    apply ih.mono
    intro _ hrest
    exact forall_mem_cons.mpr ⟨heq ▸ hsize, hrest⟩

end

/-- What a prepared report is compared with before it is published. -/
structure Validated (s : World) (root : Path) (directory : String) (registered : Registry)
    (artifacts : List ManifestArtifact) (expected : Bytes) (d : Nat) : Prop where
  named : s.names root directory = some d
  manifest : s.files d manifestFileName = some expected
  exact : ∀ name, name ∈ registered.keys ↔
    (s.files d name).isSome = true ∧ name ≠ manifestFileName
  sizes : ∀ artifact ∈ artifacts, ∃ data,
    s.files d artifact.path = some data ∧ data.length = artifact.size

/-- The last validation before the rename. -/
theorem reads_revalidatePreparedReport {registered : Registry} {manifest : ReportManifest}
    {expected : Bytes} {maxEntries deadline} : Reads (storeStep conditions) s
      (revalidatePreparedReport caller root directory registered manifest expected
        maxEntries deadline)
      fun _ => ∃ d, Validated s root directory registered manifest.artifacts expected d := by
  apply (reads_ensureBeforeDeadline).bind
  intro _ _
  apply (reads_readManifestFile).bind
  rintro current ⟨d, hd, hcurrent⟩
  split
  · exact .throw
  split
  · exact .throw
  next same =>
  rw [not_not] at same
  rw [same] at hcurrent
  apply (reads_validateExactDirectoryBounded hd).bind
  intro _ hexact
  apply (reads_validateManifestSizes hd).mono
  intro _ hsizes
  exact ⟨d, hd, hcurrent, hexact, hsizes⟩

end Reading

/-! ## Calls of a publication -/

section Calls

variable {conditions : Conditions} {caller : Caller} {s : World}

variable (root : Path) (name : String)

end Calls

/-! ## Publication -/

section Publication

variable {conditions : Conditions} {caller : Caller} {s : World}

/-- Every registered name is a file of the directory. -/
def Holds (s : World) (root : Path) (directory : String) (registered : Registry) : Prop :=
  ∃ d, s.names root directory = some d ∧ ∀ name ∈ registered.keys, (s.files d name).isSome = true

theorem Validated.holds {root directory registered artifacts expected d}
    (h : Validated s root directory registered artifacts expected d) :
    Holds s root directory registered := ⟨d, h.named, fun name hname => ((h.exact name).mp hname).1⟩

theorem Holds.of_eq {s' root directory registered}
    (h : Holds s root directory registered) (hnames : s'.names = s.names)
    (hfiles : s'.files = s.files) : Holds s' root directory registered := by
  unfold Holds
  rw [hnames, hfiles]
  exact h

/-- A rename takes the files along. -/
theorem Holds.moveDirectory {root root' directory directory' registered}
    (h : Holds s root directory registered) {d} (hd : s.names root directory = some d) :
    Holds (s.moveDirectory root directory root' directory' d) root' directory' registered := by
  obtain ⟨d', hd', hfiles⟩ := h
  have hsame : d' = d := Option.some.inj (hd'.symm.trans hd)
  exact ⟨d, by simp [World.moveDirectory, World.setName], hsame ▸ hfiles⟩

variable {root : Path} {name : String} {registered : Registry}

/-- A call on the memory of the monitor leaves the published directory as it
is. -/
theorem Holds.perform (hholds : Holds s root name registered) {o}
    (hkeep : ∀ r s', effect caller s o r s' → s'.names = s.names ∧ s'.files = s.files) :
    Yields (storeStep conditions) s (.always (perform caller o))
      fun _ s' => Holds s' root name registered := by
  apply always
  intro r s' hstep
  have hsame := hkeep r s' hstep.2.2
  exact hholds.of_eq hsame.1 hsame.2

variable (outputRoot : Path)

variable (codec : Codec)

end Publication

end CrashMonitor.Store
