import CrashMonitor.Store.Manifest
import CrashMonitor.Lib.Alone

/-!
# The staging directory of one report

What the collectors and the post-processors see of it: the files by name, the
registry of the transaction, and what the pipeline keeps in memory. Nobody else
touches the directory, and every call may fail. `create` and `publish` are the
private file functions as a whole, with what they can leave behind.
-/

namespace CrashMonitor.Staging

open Store Interleave Function List

/-- `RawCopiedAttachment`; the copy is known by its name in the directory. -/
structure CopiedAttachment where
  label : String
  originalPath : String
  copiedPath : String
  size : Nat
  deriving DecidableEq

/-- `ReportResult`, with paths given by their names in the directory. -/
structure ReportResult where
  artifactPaths : List String
  rawPath : Option String
  jsonPath : Option String
  deriving DecidableEq

structure Folder where
  files : Content
  registry : Registry
  attachments : List CopiedAttachment
  result : ReportResult
  /-- What the reads of the attachment being copied have returned. -/
  taken : Bytes

namespace Folder

variable (s : Folder) (name : String)

def setFile (data : Option Bytes) : Folder := { s with files := update s.files name data }

/-- A rename, with the content it moves. -/
def moveFile (name' : String) (data : Bytes) : Folder :=
  (s.setFile name none).setFile name' (some data)

def register (kind : ArtifactKind) : Folder := { s with registry := s.registry.insert name kind }

def unregister : Folder := { s with registry := s.registry.erase name }

@[simp] theorem setFile_files (data : Option Bytes) :
    (s.setFile name data).files = update s.files name data := rfl

theorem setFile_same (data : Option Bytes) : (s.setFile name data).files name = data :=
  update_self ..

end Folder

/-! ## Calls -/

/-- `std::io::Error`, as far as its kinds are told apart. -/
inductive Failure where
  | interrupted
  | missing
  | other (text : String)

def Failure.text : Failure → String
  | .interrupted => "interrupted"
  | .missing => "entity not found"
  | .other text => text

inductive StagingOp where
  /-- A call that changes nothing here: a checkpoint, a permission check or
  repair, flushing, synchronising. -/
  | probe (what : String)
  | timedOut
  | uuid
  /-- The walk to the source of an attachment. -/
  | openSource (path : String)
  /-- Whether the source is a regular file, and its length. -/
  | sourceMetadata
  | readSource (length : Nat)
  | create (name : String)
  /-- `write`: the number of bytes taken. -/
  | append (name : String) (data : Bytes)
  | writeAll (name : String) (data : Bytes)
  /-- `open_private_file` or `symlink_metadata`, and the size. -/
  | fileSize (name : String)
  | readAt (name : String) (offset length : Nat)
  /-- A whole file, read in chunks. -/
  | readAll (name : String)
  | publish (source destination : String)
  /-- `fs::rename`, which replaces. -/
  | replace (source destination : String)
  | remove (name : String)
  /-- Whether a name still leads to the file it once did. -/
  | unchanged (name : String)
  | register (name : String) (kind : ArtifactKind)
  | insert (name : String) (kind : ArtifactKind)
  | unregister (name : String)
  | artifacts
  | attach (attachment : CopiedAttachment)
  | result
  | setResult (result : ReportResult)

def StagingOp.Res : StagingOp → Type
  | .timedOut => Bool
  | .uuid => String
  | .sourceMetadata => Except String (Bool × Nat)
  | .readSource _ | .readAt .. => Except Failure Bytes
  | .append .. => Except Failure Nat
  | .fileSize _ => Except String Nat
  | .readAll _ => Except String Bytes
  | .remove _ => Except Failure Unit
  | .unchanged _ => Except Failure Bool
  | .artifacts => List (String × ArtifactKind)
  | .result => ReportResult
  | .insert .. | .attach _ | .setResult _ => Unit
  | _ => Except String Unit

def stagingSig : Sig := ⟨StagingOp, StagingOp.Res⟩

/-- What a publication can leave behind when it fails: nothing, an entry set
aside, no entry at all, or one that could not be taken back. -/
def Unpublished (reliable : Bool) (source destination : String) (s s' : Folder) : Prop :=
  s' = s ∨ s.files destination = none ∧ ∃ data, s.files source = some data ∧
    (s' = s.setFile source none ∨
      (∃ nonce, s.files (quarantineName nonce) = none ∧
        s' = s.moveFile source (quarantineName nonce) data) ∨
      reliable = false ∧ s' = s.moveFile source destination data)

/-- What each call answers and does. With `reliable`, a file that is there can
be removed. -/
def stagingStep (reliable : Bool) : Steps stagingSig Folder := fun o s r s' =>
  match o, r with
  | .probe _, _ | .timedOut, _ | .uuid, _ | .sourceMetadata, _ | .unchanged _, _ => s' = s
  | .openSource _, _ => s' = { s with taken := [] }
  -- the source may be changed at any time, so a read returns anything
  | .readSource length, .ok data => data.length ≤ length ∧ s' = { s with taken := s.taken ++ data }
  | .readSource _, .error _ => s' = s
  | .create name, .ok _ => s.files name = none ∧ s' = s.setFile name (some [])
  | .create name, .error _ => s' = s ∨
      reliable = false ∧ s.files name = none ∧ s' = s.setFile name (some [])
  | .append name data, .ok count => count ≤ data.length ∧ ∃ old, s.files name = some old ∧
      s' = s.setFile name (some (old ++ data.take count))
  | .append .., .error _ => s' = s
  | .writeAll name data, .ok _ => ∃ old, s.files name = some old ∧
      s' = s.setFile name (some (old ++ data))
  | .writeAll name data, .error _ => s' = s ∨ ∃ old part, s.files name = some old ∧
      part <+: data ∧ s' = s.setFile name (some (old ++ part))
  | .fileSize name, .ok size => (∃ data, s.files name = some data ∧ size = data.length) ∧ s' = s
  | .fileSize _, .error _ => s' = s
  -- a read may return less than it was asked for, but nothing only at the end
  | .readAt name offset length, .ok data => (∃ all, s.files name = some all ∧
      data = (all.drop offset).take data.length ∧ data.length ≤ length ∧
      (data = [] → length = 0 ∨ all.length ≤ offset)) ∧ s' = s
  | .readAt .., .error _ => s' = s
  | .readAll name, .ok data => s.files name = some data ∧ s' = s
  | .readAll _, .error _ => s' = s
  | .publish source destination, .ok _ => s.files destination = none ∧
      ∃ data, s.files source = some data ∧ s' = s.moveFile source destination data
  | .publish source destination, .error _ => Unpublished reliable source destination s s'
  | .replace source destination, .ok _ =>
    ∃ data, s.files source = some data ∧ s' = s.moveFile source destination data
  | .replace .., .error _ => s' = s
  | .remove name, .ok _ => (s.files name).isSome ∧ s' = s.setFile name none
  | .remove name, .error .missing => s.files name = none ∧ s' = s
  | .remove name, .error _ => (reliable = true → s.files name = none) ∧ s' = s
  | .register name kind, .ok _ => (s.files name).isSome ∧
      validateArtifactName name = true ∧ s' = s.register name kind
  | .register .., .error _ => s' = s
  | .insert name kind, _ => s' = s.register name kind
  | .unregister name, .ok _ => s' = s.unregister name
  | .unregister _, .error _ => s' = s
  | .artifacts, list => list = s.registry.entries ∧ s' = s
  | .attach attachment, _ => s' = { s with attachments := s.attachments ++ [attachment] }
  | .result, r => r = s.result ∧ s' = s
  | .setResult result, _ => s' = { s with result := result }

/-- A file that can be removed may also resist. -/
theorem stagingStep_of_reliable {o s r s'} (h : stagingStep true o s r s') :
    stagingStep false o s r s' := by
  cases o with
  | create name =>
    cases r with
    | ok _ => exact h
    | error e => exact .inl (h.resolve_right (by simp))
  | publish source destination =>
    cases r with
    | ok _ => exact h
    | error e =>
      rcases h with rfl | ⟨hfree, data, hsource, hgone | haside | hleft⟩
      · exact .inl rfl
      · exact .inr ⟨hfree, data, hsource, .inl hgone⟩
      · exact .inr ⟨hfree, data, hsource, .inr (.inl haside)⟩
      · cases hleft.1
  | remove name =>
    cases r with
    | ok _ => exact h
    | error e =>
      cases e with
      | missing => exact h
      | _ => exact ⟨Bool.noConfusion, h.2⟩
  | _ => cases r <;> exact h

/-- Triples about the staging directory. -/
abbrev Does (reliable : Bool) {α : Type} := Interleave.Does (α := α) (stagingStep reliable)

abbrev Reads (reliable : Bool) {α : Type} := Interleave.Reads (α := α) (stagingStep reliable)

/-! ## An obliging system -/

variable (s : Folder) (name : String)

def served {α : Type} : Option (α × Folder) → Except String α × Folder
  | some found => (.ok found.1, found.2)
  | none => (.error "refused", s)

/-- Every call is served that can be, and the source of an attachment has the
given content. With `failing`, the check after a publication fails. -/
def oblige (source : Bytes) (failing : Bool) : (o : StagingOp) → Folder → o.Res × Folder
  | .probe _, s => (.ok (), s)
  | .timedOut, s => (false, s)
  | .uuid, s => ("0", s)
  | .openSource _, s => (.ok (), { s with taken := [] })
  | .sourceMetadata, s => (.ok (true, source.length), s)
  | .readSource length, s =>
    let data := (source.drop s.taken.length).take length
    (.ok data, { s with taken := s.taken ++ data })
  | .create name, s => served s (
      if s.files name = none then some ((), s.setFile name (some [])) else none)
  | .append name data, s =>
    match s.files name with
    | some old => (.ok data.length, s.setFile name (some (old ++ data)))
    | none => (.error .missing, s)
  | .writeAll name data, s =>
    match s.files name with
    | some old => (.ok (), s.setFile name (some (old ++ data)))
    | none => (.error "refused", s)
  | .fileSize name, s => served s ((s.files name).map fun data => (data.length, s))
  | .readAt name offset length, s =>
    match s.files name with
    | some all => (.ok ((all.drop offset).take length), s)
    | none => (.error .missing, s)
  | .readAll name, s => served s ((s.files name).map fun data => (data, s))
  | .publish source destination, s =>
    match s.files source, s.files destination with
    | some data, none =>
      if failing then
        if s.files (quarantineName "0") = none then
          (.error "refused", s.moveFile source (quarantineName "0") data)
        else (.error "refused", s)
      else (.ok (), s.moveFile source destination data)
    | _, _ => (.error "refused", s)
  | .replace source destination, s => served s
      ((s.files source).map fun data => ((), s.moveFile source destination data))
  | .remove name, s =>
    if (s.files name).isSome then (.ok (), s.setFile name none) else (.error .missing, s)
  | .unchanged _, s => (.ok true, s)
  | .register name kind, s => served s (
      if (s.files name).isSome ∧ validateArtifactName name = true then
        some ((), s.register name kind)
      else none)
  | .insert name kind, s => ((), s.register name kind)
  | .unregister name, s => (.ok (), s.unregister name)
  | .artifacts, s => (s.registry.entries, s)
  | .attach attachment, s => ((), { s with attachments := s.attachments ++ [attachment] })
  | .result, s => (s.result, s)
  | .setResult result, s => ((), { s with result := result })

theorem oblige_step (source : Bytes) (failing : Bool) (o : StagingOp) (s : Folder) :
    stagingStep true o s (oblige source failing o s).1 (oblige source failing o s).2 := by
  cases o with
  | probe | timedOut | uuid | sourceMetadata | unchanged | openSource | insert | unregister
  | attach | setResult => exact rfl
  | artifacts | result => exact ⟨rfl, rfl⟩
  | readSource length => exact ⟨length_take_le .., rfl⟩
  | create name =>
    by_cases hfree : s.files name = none
    · simp only [oblige, if_pos hfree]
      exact ⟨hfree, rfl⟩
    · simp only [oblige, if_neg hfree]
      exact .inl rfl
  | append name data =>
    cases hfile : s.files name with
    | none => simp [oblige, stagingStep, hfile]
    | some old => simp [oblige, stagingStep, hfile]
  | writeAll name data =>
    cases hfile : s.files name <;> simp [oblige, stagingStep, hfile]
  | fileSize name | readAll name =>
    cases hfile : s.files name <;> simp [oblige, served, stagingStep, hfile]
  | readAt name offset length =>
    cases hfile : s.files name with
    | none => simp [oblige, stagingStep, hfile]
    | some all =>
      simp only [oblige, hfile]
      refine ⟨⟨all, hfile, ?_, length_take_le .., ?_⟩, rfl⟩
      · rw [length_take, take_eq_take_min]
      · simp [take_eq_nil_iff]
  | publish source destination =>
    simp only [oblige]
    split
    · next data hsource hdestination =>
      cases failing with
      | false => exact ⟨hdestination, data, hsource, rfl⟩
      | true =>
        by_cases hfree : s.files (quarantineName "0") = none
        · simp only [if_pos hfree]
          exact .inr ⟨hdestination, data, hsource, .inr (.inl ⟨"0", hfree, rfl⟩)⟩
        · simp only [if_neg hfree]
          exact .inl rfl
    · exact .inl rfl
  | replace source destination =>
    cases hfile : s.files source <;> simp [oblige, served, stagingStep, hfile]
  | remove name =>
    by_cases hfile : (s.files name).isSome
    · simp only [oblige, if_pos hfile]
      exact ⟨hfile, rfl⟩
    · simp only [oblige, if_neg hfile]
      exact ⟨Option.not_isSome_iff_eq_none.mp hfile, rfl⟩
  | register name kind =>
    by_cases hfile : (s.files name).isSome ∧ validateArtifactName name = true
    · simp only [oblige, if_pos hfile]
      exact ⟨hfile.1, hfile.2, rfl⟩
    · simp only [oblige, if_neg hfile]
      exact rfl

/-! ## Programs -/

abbrev Task := Attempt stagingSig

/-- However the task ends, it ends in `P`. -/
abbrev Keeps (reliable : Bool) {α : Type} (s : Folder) (x : Task α) (P : Folder → Prop) : Prop :=
  Does reliable s x (fun _ => P) P

/-- A call whose failure ends the program. -/
def ask {α : Type} (o : StagingOp) (f : o.Res → Except String α) : Task α :=
  ExceptT.mk (.call (S := stagingSig) o fun r => .ret (f r))

/-- A call whose answer is looked at, whatever it is. -/
def tell {α : Type} (o : StagingOp) (f : o.Res → α) : Task α := ask o fun r => .ok (f r)

def probe (what : String) : Task Unit := ask (.probe what) fun r => r

/-- `PluginContext::checkpoint`. -/
def checkpoint : Task Unit := probe "checkpoint"

def timedOut : Task Bool := tell .timedOut fun r => r
def uuid : Task String := tell .uuid fun r => r
def openSource (path : String) : Task Unit := ask (.openSource path) fun r => r
def sourceMetadata : Task (Bool × Nat) := ask .sourceMetadata fun r => r
def readSource (length : Nat) : Task (Except Failure Bytes) := tell (.readSource length) fun r => r
def create : Task Unit := ask (.create name) fun r => r
def append (data : Bytes) : Task (Except Failure Nat) := tell (.append name data) fun r => r
def writeAll (data : Bytes) : Task Unit := ask (.writeAll name data) fun r => r
def fileSize : Task Nat := ask (.fileSize name) fun r => r
def readAt (offset length : Nat) : Task (Except Failure Bytes) :=
  tell (.readAt name offset length) fun r => r
def readAll : Task Bytes := ask (.readAll name) fun r => r
def publish (source destination : String) : Task Unit :=
  ask (.publish source destination) fun r => r
def replace (source destination : String) : Task Unit :=
  ask (.replace source destination) fun r => r
def remove : Task (Except Failure Unit) := tell (.remove name) fun r => r
def unchanged : Task (Except Failure Bool) := tell (.unchanged name) fun r => r
def register (kind : ArtifactKind) : Task Unit := ask (.register name kind) fun r => r
def insert (kind : ArtifactKind) : Task Unit := tell (.insert name kind) fun r => r
def unregister : Task Unit := ask (.unregister name) fun r => r
def artifacts : Task (List (String × ArtifactKind)) := tell .artifacts fun r => r
def attach (attachment : CopiedAttachment) : Task Unit := tell (.attach attachment) fun r => r
def reportResult : Task ReportResult := tell .result fun r => r
def setResult (result : ReportResult) : Task Unit := tell (.setResult result) fun r => r

/-- A path that is no longer part of the result. -/
def forget (path : String) : Task Unit := do
  unregister path
  let result ← reportResult
  setResult { result with artifactPaths := result.artifactPaths.filter (· ≠ path) }

end CrashMonitor.Staging
