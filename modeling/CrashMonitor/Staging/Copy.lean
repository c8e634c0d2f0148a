import CrashMonitor.Staging.Temporary
import CrashMonitor.Files.Attachments
import CrashMonitor.Lib.Expand
import CrashMonitor.Lib.MachineInt

/-!
# Copying an attachment

`copy_registered_attachment` of `collectors/attachment.rs`: the source is read
in chunks of any size into a temporary file, which is published under its final
name or removed. The walk to the source is one call here; its system calls are
those of `Files.openRegularSource`.
-/

namespace CrashMonitor.Staging

open Store Interleave MachineInt Files Function List

def attachmentCopyBufferSize : Nat := 64 * 1024
def maxWriteAttemptsPerChunk : Nat := 1024
def maxReadAttemptsPerChunk : Nat := 1024

/-- `write_all_cooperative`, with the attempts left. -/
def writeAllCooperative (temporary : String) : Nat → Bytes → Task Unit
  | _, [] => pure ()
  | 0, _ :: _ => do
    checkpoint
    throw "too many attachment write attempts"
  | attempts + 1, b :: bytes => do
    checkpoint
    match ← append temporary (b :: bytes) with
    | .ok 0 => throw "write temporary attachment made no progress"
    | .ok (n + 1) => writeAllCooperative temporary attempts ((b :: bytes).drop (n + 1))
    | .error .interrupted => writeAllCooperative temporary attempts (b :: bytes)
    | .error e => throw s!"write temporary attachment failed: {e.text}"

/-- The inner loop of `copy_bounded`, with the attempts left. -/
def readChunk (length : Nat) : Nat → Task Bytes
  | 0 => do
    checkpoint
    throw "too many attachment read attempts"
  | attempts + 1 => do
    checkpoint
    match ← readSource length with
    | .ok data => pure data
    | .error .interrupted => readChunk length attempts
    | .error e => throw s!"read attachment failed: {e.text}"

/-- The loop of `copy_bounded`. Every round but the last copies a byte, so the
rounds left are never used up. -/
def copyChunks (temporary : String) (maxSize : Nat) : Nat → Nat → Task Nat
  | 0, _ => throw "attachment exceeded size limit"
  | rounds + 1, copied => do
    checkpoint
    let data ← readChunk (min (maxSize + 1 - copied) attachmentCopyBufferSize)
      maxReadAttemptsPerChunk
    checkpoint
    if data = [] then pure copied
    else if copied + data.length > maxSize then
      throw s!"attachment exceeds {maxSize}-byte size limit"
    else
      writeAllCooperative temporary maxWriteAttemptsPerChunk data
      checkpoint
      copyChunks temporary maxSize rounds (copied + data.length)

/-- `copy_bounded`. -/
def copyBounded (temporary : String) (maxSize : Nat) : Task Nat :=
  if maxSize + 1 > u64Max then throw "attachment size limit overflow"
  else copyChunks temporary maxSize (maxSize + 1) 0

/-- What is done with the temporary file before it is published. -/
def copyInto (temporary : String) : Task Nat := do
  let copied ← copyBounded temporary maxAttachmentSize
  checkpoint
  (probe "sync the file").mapError fun e => s!"sync temporary attachment failed: {e}"
  pure copied

/-- A failed sync after the publication is only a warning. -/
def syncWarning (destination : String) : Task (Option String) := do
  match ← (probe "sync the parent directory").outcome with
  | .ok _ => pure none
  | .error e => pure (some (s!"attachment '{destination}' was published but its directory " ++
      s!"could not be synced: {e}"))

/-- `copy_registered_attachment`. -/
def copyRegisteredAttachment (path destination temporary : String) :
    Task (Nat × Option String) := do
  checkpoint
  openSource path
  checkpoint
  let (isFile, length) ← sourceMetadata.mapError fun e => s!"fstat attachment failed: {e}"
  if !isFile then throw "attachment is not a regular file"
  else if length > maxAttachmentSize then
    throw s!"attachment is too large ({length} bytes > {maxAttachmentSize})"
  else
    checkpoint
    (probe "open the directory").mapError fun e =>
      s!"prepare temporary attachment directory failed: {e}"
    (create temporary).mapError fun e => s!"create temporary attachment failed: {e}"
    let copied ← publishThrough temporary destination
      (fun e => s!"commit temporary attachment failed: {e}") (copyInto temporary)
    let warning ← syncWarning destination
    pure (copied, warning)

/-! ## What a copy leaves -/

section Does

variable {reliable : Bool} {s : Folder}

theorem does_writeAllCooperative {temporary} (attempts : Nat) (bytes : Bytes)
    {old} (hold : s.files temporary = some old) :
    Does reliable s (writeAllCooperative temporary attempts bytes)
      (fun _ s' => s' = s.setFile temporary (some (old ++ bytes)))
      (fun s' => ∃ part, s' = s.setFile temporary (some (old ++ part))) := by
  have hself : ∀ {s : Folder} {old : Bytes}, s.files temporary = some old →
      s = s.setFile temporary (some (old ++ [])) := by
    intro s old hold
    rw [append_nil, Folder.setFile_eq_self hold]
  induction attempts generalizing s old bytes with
  | zero =>
    cases bytes with
    | nil => exact .pure (hself hold)
    | cons b bytes =>
      exact .read reads_checkpoint ⟨[], hself hold⟩ fun _ _ => .throw ⟨[], hself hold⟩
  | succ attempts ih =>
    cases bytes with
    | nil => exact .pure (hself hold)
    | cons b bytes =>
      refine .read reads_checkpoint ⟨[], hself hold⟩ fun _ _ => ?_
      intro r s' hstep
      cases r with
      | error e =>
        cases hstep
        cases e with
        | interrupted => exact ih (b :: bytes) hold
        | _ => exact ⟨[], hself hold⟩
      | ok count =>
        obtain ⟨-, old', hold', rfl⟩ := hstep
        cases hold.symm.trans hold'
        cases count with
        | zero => exact ⟨[], by rw [take_zero]⟩
        | succ n =>
          -- the rest goes behind what has been taken
          apply (ih ((b :: bytes).drop (n + 1)) (update_self ..)).mono
          · rintro _ _ rfl
            simp [Folder.setFile]
          · rintro _ ⟨part, rfl⟩
            exact ⟨(b :: bytes).take (n + 1) ++ part, by simp [Folder.setFile]⟩

theorem does_readChunk {length attempts} : Does reliable s (readChunk length attempts)
      (fun data s' => s' = { s with taken := s.taken ++ data }) (fun s' => s' = s) := by
  induction attempts with
  | zero => exact .read reads_checkpoint rfl fun _ _ => .throw rfl
  | succ attempts ih =>
    refine .read reads_checkpoint rfl fun _ _ => ?_
    intro r s' hstep
    cases r with
    | ok data => exact hstep.2
    | error e =>
      cases hstep
      cases e with
      | interrupted => exact ih
      | _ => rfl

/-- What has been written is what has been read, as long as nothing fails. -/
theorem does_copyChunks {temporary maxSize rounds copied bytes} (hcopied : copied = bytes.length)
    (hsize : copied ≤ maxSize) :
    Does reliable (s.copying temporary bytes bytes) (copyChunks temporary maxSize rounds copied)
      (fun n s' => ∃ all, s' = s.copying temporary all all ∧ n = all.length ∧ n ≤ maxSize)
      (s.Filling temporary) := by
  induction rounds generalizing copied bytes with
  | zero => exact .throw ⟨bytes, bytes, rfl⟩
  | succ rounds ih =>
    refine .read reads_checkpoint ⟨bytes, bytes, rfl⟩ fun _ _ => ?_
    apply ((does_readChunk).weaken fun _ h => ⟨bytes, bytes, h⟩).bind
    rintro data _ rfl
    refine .read reads_checkpoint ⟨bytes, bytes ++ data, rfl⟩ fun _ _ => ?_
    split
    · next hempty =>
      subst hempty
      exact .pure ⟨bytes, by rw [append_nil], hcopied, hsize⟩
    split
    · exact .throw ⟨bytes, bytes ++ data, rfl⟩
    next hwithin =>
    have hset : ∀ part, (s.copying temporary bytes (bytes ++ data)).setFile temporary
        (some (bytes ++ part)) = s.copying temporary (bytes ++ part) (bytes ++ data) := by
      intro part
      simp [Folder.copying, Folder.setFile]
    have hwrite : Does reliable (s.copying temporary bytes (bytes ++ data))
        (writeAllCooperative temporary maxWriteAttemptsPerChunk data)
        (fun _ s' => s' = s.copying temporary (bytes ++ data) (bytes ++ data))
        (s.Filling temporary) := by
      apply (does_writeAllCooperative _ data (update_self ..)).mono
      · exact fun _ _ h => h.trans (hset data)
      · rintro _ ⟨part, rfl⟩
        exact ⟨bytes ++ part, bytes ++ data, hset part⟩
    apply hwrite.bind
    rintro _ _ rfl
    refine .read reads_checkpoint ⟨_, _, rfl⟩ fun _ _ => ?_
    exact ih (by rw [hcopied, length_append]) (Nat.not_lt.mp hwithin)

theorem achieves_syncWarning {destination} :
    Achieves (stagingStep reliable) s (syncWarning destination) fun _ s' => s' = s := by
  have hprobe : Ensures (stagingStep reliable) s (probe "sync the parent directory").run
      fun _ s' => s' = s := fun _ _ hstep => hstep
  apply (Achieves.outcome hprobe).bind
  rintro result _ rfl
  cases result <;> exact .pure rfl

/-- A file published under a new name, with what was read into it. -/
def Published (destination : String) (s : Folder) (size : Nat) (s' : Folder) : Prop :=
  s.files destination = none ∧ ∃ all, size = all.length ∧ size ≤ maxAttachmentSize ∧
    s' = s.copying destination all all

theorem does_copyInto {temporary} : Does reliable (s.copying temporary [] []) (copyInto temporary)
      (fun n s' => ∃ written read, (read = written ∧ n = written.length ∧
        n ≤ maxAttachmentSize) ∧ s' = s.copying temporary written read) (s.Filling temporary) := by
  have hbounded : Does reliable (s.copying temporary [] [])
      (copyBounded temporary maxAttachmentSize)
      (fun n s' => ∃ all, s' = s.copying temporary all all ∧ n = all.length ∧ n ≤ maxAttachmentSize)
      (s.Filling temporary) := by
    unfold copyBounded
    split
    · exact .throw ⟨[], [], rfl⟩
    · exact does_copyChunks rfl (Nat.zero_le _)
  apply hbounded.bind
  rintro n _ ⟨all, rfl, hlength, hlimit⟩
  refine .read reads_checkpoint ⟨all, all, rfl⟩ fun _ _ => ?_
  refine .read (reads_probe _).mapError ⟨all, all, rfl⟩ fun _ _ => ?_
  exact .pure ⟨all, all, ⟨rfl, hlength, hlimit⟩, rfl⟩

/-- All that a failed copy leaves, if removals work: the complete copy, once it
had its name and was set aside. -/
abbrev Failed (reliable : Bool) (temporary destination : String) (s s' : Folder) : Prop :=
  ∃ nonce, Abandoned (Leftover reliable temporary destination nonce fun data =>
    s.files destination = none ∧ data = s'.taken ∧ data.length ≤ maxAttachmentSize) s s'

/-- A copy has published exactly what was read, or it has failed. -/
theorem does_copyRegisteredAttachment (path destination temporary : String) :
    Does reliable s (copyRegisteredAttachment path destination temporary)
      (fun found s' => Published destination s found.1 s')
      (Failed reliable temporary destination s) := by
  have hrefl : ∀ read, Failed reliable temporary destination s { s with taken := read } :=
    fun read => ⟨"", _, read, rfl, .refl _⟩
  refine .read reads_checkpoint (hrefl s.taken) fun _ _ => ?_
  have hopen : Does reliable s (openSource path)
      (fun _ s' => s' = { s with taken := [] }) (fun s' => s' = { s with taken := [] }) := by
    intro r s' hstep
    cases r <;> exact hstep
  apply (hopen.weaken fun _ h => h ▸ hrefl []).bind
  rintro _ _ rfl
  refine .read reads_checkpoint (hrefl _) fun _ _ => ?_
  have hmetadata : Reads reliable { s with taken := [] } sourceMetadata
      fun _ => True := fun _ _ hstep => ⟨hstep, fun _ _ => trivial⟩
  refine .read hmetadata.mapError (hrefl _) fun found _ => ?_
  dsimp only
  split
  · exact .throw (hrefl _)
  split
  · exact .throw (hrefl _)
  refine .read reads_checkpoint (hrefl _) fun _ _ => ?_
  refine .read (reads_probe _).mapError (hrefl _) fun _ _ => ?_
  have hcreate : Does reliable { s with taken := [] } (create temporary)
      (fun _ s' => s.files temporary = none ∧ s' = s.copying temporary [] [])
      (Failed reliable temporary destination s) := by
    apply (does_create temporary).weaken
    rintro _ ⟨files, read, rfl, hspares⟩
    exact ⟨"", files, read, rfl, hspares.mono fun _ _ h => .inr h⟩
  apply hcreate.mapError.bind
  rintro _ _ ⟨hfree, rfl⟩
  refine .bind ((does_publishThrough hfree does_copyInto).weaken ?_) ?_
  · rintro s' ⟨nonce, h⟩
    refine ⟨nonce, h.mono fun name data hnew => hnew.imp_left ?_⟩
    rintro ⟨⟨hdestination, size, htaken, rfl, hlimit⟩, hname⟩
    exact ⟨⟨hdestination, htaken.symm, hlimit⟩, hname⟩
  · rintro size _ ⟨all, _, ⟨rfl, hsize, hlimit⟩, hdestination, rfl⟩
    apply (achieves_syncWarning).seq
    rintro warning _ rfl
    exact ⟨hdestination, _, hsize, hlimit, rfl⟩

end Does

/-- A source that was opened has been walked to by the calls of
`openRegularSource`. -/
def Sourced (roots : List AllowedSourceRoot) : (o : StagingOp) → o.Res → Prop
  | .openSource path, .ok _ =>
    ∃ h t, Run (witnessed FileTree.treeStep) (openRegularSource path roots).run [] (.ok h) t
  | _, _ => True

theorem yields_sourced {step : Steps stagingSig Folder} {roots path destination temporary} {s}
    (hstep : ∀ o s r s', step o s r s' → Sourced roots o r) :
    Yields step s (copyRegisteredAttachment path destination temporary) fun _ _ =>
      ∃ h t, Allowed path roots h t := by
  refine .skip fun _ s => ?_
  have hopen : Yields step s (openSource path) fun _ _ => ∃ h t, Allowed path roots h t := by
    intro r s' h a hr
    cases hr
    obtain ⟨file, t, hrun⟩ := hstep _ _ _ _ h
    exact ⟨file, t, (yields_openRegularSource path roots).run hrun⟩
  apply hopen.bind
  exact fun _ _ h => (Ensures.always_true _ _).mono fun _ _ _ _ _ => h

/-- Whatever is renamed during the walk, the source of a copy is a regular file
that was reached from an allowed root through plain names, none of them a link;
so is that of every copy whose source is opened by such a walk. However the
source is read, a copy that succeeds is what was read, within the limit and
under a name that was free; one that fails has left nothing, if removals work,
but perhaps one file, the complete copy that publication has renamed and then
set aside. No file that was there is changed. -/
theorem attachment_copied_exactly (path destination temporary : String)
    (roots : List AllowedSourceRoot) :
    (∀ h t, Run (witnessed FileTree.treeStep) (openRegularSource path roots).run [] (.ok h) t →
      Allowed path roots h t) ∧
    (∀ (step : Steps stagingSig Folder) s found s',
      (∀ o s r s', step o s r s' → Sourced roots o r) →
      Run step (copyRegisteredAttachment path destination temporary).run s (.ok found) s' →
      ∃ h t, Allowed path roots h t) ∧
    ∀ reliable s result s', Run (stagingStep reliable)
        (copyRegisteredAttachment path destination temporary).run s result s' →
      (∀ name data, s.files name = some data → s'.files name = some data) ∧
      (∀ size warning, result = .ok (size, warning) →
        size ≤ maxAttachmentSize ∧ s'.taken.length = size ∧ s.files destination = none ∧
        s'.files = update s.files destination (some s'.taken)) ∧
      ∀ e, result = .error e → reliable = true → ∃ nonce, Spares (fun name data =>
        name = quarantineName nonce ∧ s.files destination = none ∧ data = s'.taken ∧
          data.length ≤ maxAttachmentSize) s.files s'.files := by
  refine ⟨fun h t hrun => (yields_openRegularSource path roots).run hrun,
    fun step s found s' hstep hrun => (yields_sourced hstep).run hrun, ?_⟩
  intro reliable s result s' hrun
  have hdone := (does_copyRegisteredAttachment path destination temporary).run hrun
  cases result with
  | ok found =>
    obtain ⟨hfree, all, hsize, hlimit, rfl⟩ := hdone
    refine ⟨?_, ?_, by simp⟩
    · intro name data hdata
      have hne : name ≠ destination := by
        rintro rfl
        cases hfree.symm.trans hdata
      exact (update_of_ne hne ..).trans hdata
    · intro size warning hfound
      cases hfound
      exact ⟨hlimit, hsize.symm, hfree, rfl⟩
  | error e =>
    obtain ⟨nonce, files, read, rfl, hspares⟩ := hdone
    refine ⟨fun name data hdata => hspares.kept hdata, by simp, ?_⟩
    rintro _ - rfl
    refine ⟨nonce, hspares.mono fun name data hnew => ?_⟩
    rcases hnew with ⟨⟨hfree, hdata, hlimit⟩, hname | ⟨hno, -⟩⟩ | ⟨hno, -⟩
    · exact ⟨hname, hfree, hdata, hlimit⟩
    · cases hno
    · cases hno

namespace OneAttachment

def folder : Folder := ⟨fun _ => none, .empty, [], ⟨[], none, none⟩, []⟩

/-- The copy of a file of three bytes. -/
def final (failing : Bool) : Except String (Nat × Option String) × Folder :=
  (copyRegisteredAttachment "notes.txt" "attachment-notes-0.txt" ".tmp").run.exec
    (oblige [1, 2, 3] failing) folder

theorem run (failing : Bool) : Run (stagingStep true)
      (copyRegisteredAttachment "notes.txt" "attachment-notes-0.txt" ".tmp").run folder
      (final failing).1 (final failing).2 := .of_exec (oblige_step [1, 2, 3] failing) _ _

-- with nothing failing, the file is there
example : (final false).1.toOption = some (3, none) ∧
    (final false).2.files "attachment-notes-0.txt" = some [1, 2, 3] := by
  decide +kernel

end OneAttachment

/-- When the published file cannot be inspected, the copy fails with a complete
file left in the staging directory, although every removal works. -/
theorem unverified_copy_left_behind : ∃ result s', Run (stagingStep true)
        (copyRegisteredAttachment "notes.txt" "attachment-notes-0.txt" ".tmp").run
        OneAttachment.folder result s' ∧
      (∃ e, result = .error e) ∧ OneAttachment.folder.files ".publish-0.pending" = none ∧
        s'.files ".publish-0.pending" = some [1, 2, 3] := by
  refine ⟨_, _, OneAttachment.run true, ?_, rfl, by decide +kernel⟩
  have hfailed : (OneAttachment.final true).1.toOption = none := by decide +kernel
  cases hresult : (OneAttachment.final true).1 with
  | error e => exact ⟨e, rfl⟩
  | ok found =>
    rw [hresult] at hfailed
    cases hfailed

end CrashMonitor.Staging
