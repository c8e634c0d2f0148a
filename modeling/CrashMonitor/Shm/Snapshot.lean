import CrashMonitor.Shm.Layout

/-!
# Shared memory — owned snapshots

`snapshot_owned_until_with_policy` and what it calls. The live mapping may
change between any two observations, so a mapping is given as its content
at every moment; a moment passes with each atomic load, each copied byte
and each look at the clock. The owned buffer always has the full size of
the mapping and is a memory of its own.
-/

namespace CrashMonitor.Shm

open Bytes

/-! ## Policy -/

/-- `ShmSnapshotPolicy`: the payload sections a capture may copy. -/
structure ShmSnapshotPolicy where
  breadcrumbs : Bool
  context : Bool
  attachments : Bool
  screenshots : Bool
  deriving DecidableEq, Repr

/-- `ShmSnapshotPolicy::ALL`. -/
def ShmSnapshotPolicy.all : ShmSnapshotPolicy := ⟨true, true, true, true⟩

/-- `ShmSnapshotPolicy::allows_atomic`. -/
def ShmSnapshotPolicy.allowsAtomic (policy : ShmSnapshotPolicy) (offset : Nat) : Bool :=
  if offset = registryGenerationOffset ∨ offset = ringCountOffset then
    policy.breadcrumbs
  else if offset = contextGenerationOffset ∨
      offset = settingsGenerationOffset ∨ offset = heartbeatOffset then
    policy.context
  else if offset = attachmentsGenerationOffset then policy.attachments
  else if offset = producerReadyOffset then true
  else if ringsOffset ≤ offset ∧ offset < section2Offset + section2Size then
    policy.breadcrumbs
  else if screenshotGenerationsOffset ≤ offset ∧ offset < screenshotTimestampsOffset then
    policy.screenshots
  else false

/-! ## Errors and issues -/

inductive ShmValidationError where
  | mappingTooSmall (mapped required : Nat)
  | misalignedMapping (address required : Nat)
  | invalidMagic (found : Nat)
  | unsupportedVersion (found : Nat)
  | invalidCanary (found : Nat)
  | invalidSnapshotLength (found minimum maximum : Nat)
  deriving DecidableEq, Repr

inductive ShmSnapshotError where
  | validation (error : ShmValidationError)
  | deadlineExceeded
  | allocationFailed (requested : Nat)
  deriving DecidableEq, Repr

/-- `ShmConsistencyIssue`: a unit that was not proven stable. -/
inductive ShmConsistencyIssue where
  | breadcrumbRegistry (generationBefore generationAfter ringCountBefore ringCountAfter : Nat)
  | breadcrumbRing (index generationBefore generationAfter : Nat)
  | context (generationBefore generationAfter : Nat)
  | settings (generationBefore generationAfter : Nat)
  | attachments (generationBefore generationAfter : Nat)
  | screenshotSlot (index generationBefore generationAfter : Nat)
  deriving DecidableEq, Repr

/-! ## The live mapping -/

/-- A mapping, its content and the clock at every moment, and whether the
destination can be allocated. -/
structure LiveMapping where
  address : Nat
  len : Nat
  live : Nat → Mem
  now : Nat → Nat
  reserves : Bool

/-- A mapping of the right shape that holds `m` and does not move. -/
def heldMapping (m : Mem) : LiveMapping where
  address := 0
  len := shmTotalSize
  live _ := m
  now _ := 0
  reserves := true

/-- A computation that observes the mapping as time passes. -/
abbrev SnapshotM := StateT Nat (Except ShmSnapshotError)

namespace LiveMapping

variable (L : LiveMapping)

/-- One atomic load. -/
def observe (offset width : Nat) : SnapshotM Nat := fun t =>
  .ok ((L.live t).load offset width, t + 1)

/-- `Instant::now`. -/
def readClock : SnapshotM Nat := fun t => .ok (L.now t, t + 1)

/-- `ptr::copy_nonoverlapping` of `len` bytes to the same offsets, one byte a
moment. -/
def copyBytes (bytes : Mem) (start len : Nat) : SnapshotM Mem := fun t =>
  .ok (fun a => if start ≤ a ∧ a < start + len then
      L.live (t + (a - start)) a else bytes a, t + len)

/-- `check_snapshot_deadline`; without a deadline the clock is not read. -/
def checkSnapshotDeadline : Option Nat → SnapshotM Unit
  | none => pure ()
  | some deadline => do
    let now ← L.readClock
    if now ≥ deadline then throw .deadlineExceeded else pure ()

/-- `load_atomic_u32_at` and `load_atomic_u64_at`, which differ in the width
only. -/
def loadAtomicAt (width offset : Nat) : SnapshotM (Option Nat) :=
  if offset + width > L.len ∨ offset % width ≠ 0 then pure none
  else do
    let value ← L.observe offset width
    pure (some value)

def loadAtomicU32At (offset : Nat) : SnapshotM (Option Nat) := L.loadAtomicAt 4 offset

def loadAtomicU64At (offset : Nat) : SnapshotM (Option Nat) := L.loadAtomicAt 8 offset

end LiveMapping

/-! ## Publication words -/

section

variable (L : LiveMapping) (deadline : Option Nat) (policy : ShmSnapshotPolicy)

/-- `LivePublicationState`. -/
structure LivePublicationState where
  registryGeneration : Nat
  ringCount : Nat
  ringGenerations : List Nat
  contextGeneration : Nat
  settingsGeneration : Nat
  attachmentsGeneration : Nat
  producerReady : Nat
  screenshotGenerations : List Nat
  deriving DecidableEq, Repr

/-- `load_u32` of `load_publication_state`: zero without permission. -/
def LiveMapping.loadU32 (enabled : Bool) (offset : Nat) : SnapshotM Nat :=
  if enabled then do
    let value ← L.loadAtomicU32At offset
    pure (value.getD 0)
  else pure 0

/-- `load_publication_state`. -/
def LiveMapping.loadPublicationState : SnapshotM LivePublicationState := do
  let ringGenerations ← (List.range crumbMaxThreads).mapM fun index =>
    L.loadU32 policy.breadcrumbs (ringOffset index + ringGenerationOffset)
  let screenshotGenerations ← (List.range screenshotSlots).mapM fun index =>
    L.loadU32 policy.screenshots (screenshotGenerationsOffset + index * 4)
  let registryGeneration ← L.loadU32 policy.breadcrumbs registryGenerationOffset
  let ringCount ← L.loadU32 policy.breadcrumbs ringCountOffset
  let contextGeneration ← L.loadU32 policy.context contextGenerationOffset
  let settingsGeneration ← L.loadU32 policy.context settingsGenerationOffset
  let attachmentsGeneration ← L.loadU32 policy.attachments attachmentsGenerationOffset
  -- the readiness flag needs no permission; unreadable it counts as not ready
  let producerReady ← L.loadU32 true producerReadyOffset
  pure {
    registryGeneration, ringCount, ringGenerations, contextGeneration,
    settingsGeneration, attachmentsGeneration, producerReady,
    screenshotGenerations }

/-- `LiveAtomicWord`: offset and width. -/
structure LiveAtomicWord where
  offset : Nat
  width : Nat
  deriving DecidableEq, Repr

/-- `LIVE_ATOMIC_WORDS`, in address order. -/
def liveAtomicWords : List LiveAtomicWord :=
  [⟨registryGenerationOffset, 4⟩, ⟨contextGenerationOffset, 4⟩,
    ⟨settingsGenerationOffset, 4⟩, ⟨attachmentsGenerationOffset, 4⟩,
    ⟨producerReadyOffset, 4⟩] ++ (List.range crumbMaxThreads).map
    (fun index => ⟨ringOffset index + ringGenerationOffset, 4⟩) ++
  [⟨ringCountOffset, 4⟩, ⟨heartbeatOffset, 8⟩] ++ (List.range screenshotSlots).map
    (fun index => ⟨screenshotGenerationsOffset + index * 4, 4⟩)

/-! ## Copying -/

@[simp] def snapshotCopyChunkSize : Nat := 1024 * 1024

/-- The loop of `copy_non_atomic_range`. -/
def LiveMapping.copyNonAtomicRange (L : LiveMapping) (deadline : Option Nat)
    (bytes : Mem) (copied stop : Nat) : SnapshotM Mem :=
  if copied < stop then do
    L.checkSnapshotDeadline deadline
    let chunkLen := min (stop - copied) snapshotCopyChunkSize
    let bytes ← L.copyBytes bytes copied chunkLen
    copyNonAtomicRange L deadline bytes (copied + chunkLen) stop
  else pure bytes
termination_by stop - copied
decreasing_by simp only [snapshotCopyChunkSize]; omega

/-- The sections of `copy_selected_non_atomic_range`. -/
def ShmSnapshotPolicy.sections : List (Nat × Nat × Bool) :=
  [(section1Offset, section1Offset + section1Size, true),
    (section2Offset, section2Offset + section2Size, policy.breadcrumbs),
    (contextOffset, attachmentOffset, policy.context),
    (attachmentOffset, section4Offset, policy.attachments),
    (section4Offset, footerOffset, policy.screenshots), (footerOffset, shmTotalSize, true)]

/-- One section of `copy_selected_non_atomic_range`. -/
def LiveMapping.copySection
    (start stop : Nat) (bytes : Mem) (part : Nat × Nat × Bool) : SnapshotM Mem :=
  let copyStart := max start part.1
  let copyEnd := min stop part.2.1
  if part.2.2 = true ∧ copyStart < copyEnd then
    L.copyNonAtomicRange deadline bytes copyStart copyEnd
  else pure bytes

/-- `copy_selected_non_atomic_range`. -/
def LiveMapping.copySelectedNonAtomicRange (bytes : Mem) (start stop : Nat) : SnapshotM Mem :=
  policy.sections.foldlM (L.copySection deadline start stop) bytes

/-- `copy_atomic_word`. -/
def LiveMapping.copyAtomicWord (bytes : Mem) (word : LiveAtomicWord) : SnapshotM Mem := do
  let value ← L.loadAtomicAt word.width word.offset
  pure (bytes.store word.offset word.width (value.getD 0))

/-- One round of the copy loop: the gap before `word`, then `word`. -/
def LiveMapping.copyWord (state : Mem × Nat) (word : LiveAtomicWord) : SnapshotM (Mem × Nat) := do
  let bytes ← L.copySelectedNonAtomicRange deadline policy state.1 state.2 word.offset
  L.checkSnapshotDeadline deadline
  let bytes ← (if policy.allowsAtomic word.offset then
    L.copyAtomicWord bytes word else pure bytes)
  pure (bytes, word.offset + word.width)

/-- The copy of `snapshot_owned_until_with_policy`. -/
def LiveMapping.copyAll : SnapshotM Mem := do
  let (bytes, cursor) ← liveAtomicWords.foldlM (L.copyWord deadline policy) (fun _ => 0, 0)
  L.copySelectedNonAtomicRange deadline policy bytes cursor shmTotalSize

end

/-! ## Sanitizing -/

/-- `stable_generation`. -/
def stableGeneration (before after : Nat) : Bool := before == after && before % 2 == 0

/-- `zero_owned_range`; a range that leaves the buffer is ignored. -/
def zeroOwnedRange (bytes : Mem) (offset len : Nat) : Mem :=
  if offset + len ≤ shmTotalSize then
    fun a => if offset ≤ a ∧ a < offset + len then 0 else bytes a
  else bytes

/-- `write_owned_u32` and `write_owned_u64`. -/
def writeOwned (width : Nat) (bytes : Mem) (offset value : Nat) : Mem :=
  if offset + width ≤ shmTotalSize then bytes.store offset width value
  else bytes

abbrev writeOwnedU32 : Mem → Nat → Nat → Mem := writeOwned 4

abbrev writeOwnedU64 : Mem → Nat → Nat → Mem := writeOwned 8

/-- The buffer and the issues found so far. -/
structure Sanitized where
  bytes : Mem
  issues : List ShmConsistencyIssue

section Sanitize

variable (before after : LivePublicationState)

section

variable (L : LiveMapping) (deadline : Option Nat) (policy : ShmSnapshotPolicy) (enabled : Bool)

/-- One ring of `sanitize_breadcrumbs`. -/
def sanitizeRing (s : Sanitized) (index : Nat) : Sanitized :=
  let generationBefore := before.ringGenerations.getD index 0
  let generationAfter := after.ringGenerations.getD index 0
  if stableGeneration generationBefore generationAfter then
    { s with
      bytes := writeOwnedU32 s.bytes (ringOffset index + ringGenerationOffset)
        generationAfter }
  else
    { bytes := zeroOwnedRange s.bytes (ringOffset index) crumbRingSize
      issues := s.issues ++
        [.breadcrumbRing index generationBefore generationAfter] }

/-- `sanitize_breadcrumbs`. All eight rings are checked, registered or not. -/
def sanitizeBreadcrumbs (s : Sanitized) : Sanitized :=
  if stableGeneration before.registryGeneration after.registryGeneration &&
      before.ringCount == after.ringCount then
    (List.range crumbMaxThreads).foldl (sanitizeRing before after)
      { s with bytes := writeOwnedU32 s.bytes ringCountOffset after.ringCount }
  else
    { bytes := zeroOwnedRange s.bytes section2Offset section2Size
      issues := s.issues ++
        [.breadcrumbRegistry before.registryGeneration after.registryGeneration
          before.ringCount after.ringCount] }

/-- A unit that is zeroed as one range when it is allowed but not stable. -/
def sanitizeUnit (generationBefore generationAfter offset
    len : Nat) (issue : Nat → Nat → ShmConsistencyIssue) (s : Sanitized) : Sanitized :=
  if enabled && !stableGeneration generationBefore generationAfter then
    { bytes := zeroOwnedRange s.bytes offset len
      issues := s.issues ++ [issue generationBefore generationAfter] }
  else s

/-- `sanitize_context_settings_attachments`. -/
def sanitizeContextSettingsAttachments (s : Sanitized) : Sanitized :=
  let s := sanitizeUnit policy.context before.contextGeneration
    after.contextGeneration contextOffset crashContextSize .context s
  let s := sanitizeUnit policy.context before.settingsGeneration
    after.settingsGeneration settingsOffset settingsSize .settings s
  sanitizeUnit policy.attachments before.attachmentsGeneration
    after.attachmentsGeneration attachmentOffset attachmentSectionSize .attachments s

/-- One slot of `sanitize_screenshots`. -/
def sanitizeScreenshot (s : Sanitized) (index : Nat) : Sanitized :=
  let generationBefore := before.screenshotGenerations.getD index 0
  let generationAfter := after.screenshotGenerations.getD index 0
  let generationOffset := screenshotGenerationsOffset + index * 4
  if stableGeneration generationBefore generationAfter then
    { s with
      bytes := writeOwnedU32 s.bytes generationOffset generationAfter }
  else
    let bytes := writeOwnedU32 s.bytes generationOffset 0
    let bytes := zeroOwnedRange bytes (screenshotTimestampsOffset + index * 8) 8
    let bytes := zeroOwnedRange bytes (screenshotTiersOffset + index * 4) 4
    { bytes := zeroOwnedRange bytes
        (screenshotDataOffset + index * screenshotBytesPerSlot)
        screenshotBytesPerSlot
      issues := s.issues ++
        [.screenshotSlot index generationBefore generationAfter] }

/-- `sanitize_screenshots`. -/
def LiveMapping.sanitizeScreenshots (s : Sanitized) : SnapshotM Sanitized := do
  let s ← (List.range screenshotSlots).foldlM (fun s index => do
    L.checkSnapshotDeadline deadline
    pure (sanitizeScreenshot before after s index)) s
  L.checkSnapshotDeadline deadline
  pure s

/-- A header word, written only with permission. -/
def writeWhen (bytes : Mem) (offset value : Nat) : Mem :=
  if enabled then writeOwnedU32 bytes offset value else bytes

/-- The header words of `sanitize_publications`. -/
def writeHeaderWords (bytes : Mem) : Mem :=
  let bytes := writeWhen policy.breadcrumbs bytes registryGenerationOffset after.registryGeneration
  let bytes := writeWhen policy.context bytes contextGenerationOffset after.contextGeneration
  let bytes := writeWhen policy.context bytes settingsGenerationOffset after.settingsGeneration
  let bytes := writeWhen policy.attachments bytes attachmentsGenerationOffset
    after.attachmentsGeneration
  writeWhen true bytes producerReadyOffset after.producerReady

/-- `sanitize_publications`. -/
def LiveMapping.sanitizePublications (heartbeat : Nat) (bytes : Mem) : SnapshotM Sanitized := do
  let s : Sanitized := ⟨writeHeaderWords after policy bytes, []⟩
  let s ← (if policy.breadcrumbs then do
    L.checkSnapshotDeadline deadline
    pure (sanitizeBreadcrumbs before after s) else pure s)
  L.checkSnapshotDeadline deadline
  let s := sanitizeContextSettingsAttachments before after policy s
  let s ← (if policy.screenshots then do
    L.checkSnapshotDeadline deadline
    L.sanitizeScreenshots before after deadline s else pure s)
  -- the heartbeat is published on its own, also when the context was rejected
  pure (if policy.context then
    { s with bytes := writeOwnedU64 s.bytes heartbeatOffset heartbeat } else s)

end

end Sanitize

/-! ## Snapshots -/

/-- `OwnedShmSnapshot`; `len` is the length of the byte vector. -/
structure OwnedShmSnapshot where
  bytes : Mem
  len : Nat
  payloadLen : Nat
  consistencyIssues : List ShmConsistencyIssue

namespace OwnedShmSnapshot

variable (snapshot : OwnedShmSnapshot)

/-- `range`: a checked range that ends inside the payload. -/
def range (offset len : Nat) : Option (List UInt8) :=
  if offset + len > snapshot.payloadLen ∨ offset + len > snapshot.len then none
  else some (snapshot.bytes.read offset len)

/-- `read_u8` to `read_u64`, by width. -/
def readUnsigned (width offset : Nat) : Option Nat := (snapshot.range offset width).map ofLE

def readU8 : Nat → Option Nat := snapshot.readUnsigned 1

def readU16 : Nat → Option Nat := snapshot.readUnsigned 2

def readU32 : Nat → Option Nat := snapshot.readUnsigned 4

def readU64 : Nat → Option Nat := snapshot.readUnsigned 8

/-- `MIN_VARIABLE_SNAPSHOT_SIZE`. -/
def minVariableSnapshotSize : Nat := screenshotDataOffset + 4

/-- `validate`; the canary lies behind the payload. -/
def validate : Except ShmValidationError Unit :=
  let magic := (snapshot.readU32 section1Offset).getD 0
  let version := (snapshot.readU32 (section1Offset + 4)).getD 0
  let canary := if snapshot.payloadLen + 4 ≤ snapshot.len then
    snapshot.bytes.load snapshot.payloadLen 4 else 0
  if snapshot.len < minVariableSnapshotSize ∨ shmTotalSize < snapshot.len then
    .error (.invalidSnapshotLength snapshot.len minVariableSnapshotSize shmTotalSize)
  else if magic ≠ shmMagic then .error (.invalidMagic magic)
  else if version ≠ shmVersion then .error (.unsupportedVersion version)
  else if canary ≠ shmCanary then .error (.invalidCanary canary)
  else .ok ()

/-- `from_owned_bytes`. -/
def fromOwnedBytes (bytes : Mem) (len : Nat) (consistencyIssues : List ShmConsistencyIssue) :
    Except ShmSnapshotError OwnedShmSnapshot :=
  let payloadLen := if len = shmTotalSize then footerOffset else len - 4
  let snapshot : OwnedShmSnapshot := { bytes, len, payloadLen, consistencyIssues }
  match snapshot.validate with
  | .error error => .error (.validation error)
  | .ok () => .ok snapshot

end OwnedShmSnapshot

section

variable (L : LiveMapping) (deadline : Option Nat) (policy : ShmSnapshotPolicy)

/-- `align_of::<SutShmRegion>()`. -/
def shmRegionAlign : Nat := 8

/-- `validate_mapping_shape`. -/
def validateMappingShape (address mapped : Nat) : Except ShmValidationError Unit :=
  if mapped < shmTotalSize then .error (.mappingTooSmall mapped shmTotalSize)
  else if address % shmRegionAlign ≠ 0 then
    .error (.misalignedMapping address shmRegionAlign)
  else .ok ()

/-- The observations of a snapshot: the copy between two looks at the
publication words, then the heartbeat. -/
structure Observation where
  before : LivePublicationState
  bytes : Mem
  after : LivePublicationState
  heartbeat : Nat

/-- The part of `snapshot_owned_until_with_policy` that reads the mapping. -/
def LiveMapping.observeAll : SnapshotM Observation := do
  let before ← L.loadPublicationState policy
  let bytes ← L.copyAll deadline policy
  let after ← L.loadPublicationState policy
  let heartbeat ← (if policy.context then do
    let value ← L.loadAtomicU64At heartbeatOffset
    pure (value.getD 0) else pure 0)
  pure { before, bytes, after, heartbeat }

/-- `snapshot_owned_until_with_policy` after the mapping's shape was checked. -/
def LiveMapping.takeSnapshot : SnapshotM OwnedShmSnapshot := do
  L.checkSnapshotDeadline deadline
  if L.reserves = false then throw (.allocationFailed shmTotalSize)
  else do
    let seen ← L.observeAll deadline policy
    L.checkSnapshotDeadline deadline
    let sanitized ← L.sanitizePublications seen.before seen.after deadline
      policy seen.heartbeat seen.bytes
    let snapshot ← liftM (OwnedShmSnapshot.fromOwnedBytes sanitized.bytes
      shmTotalSize sanitized.issues)
    L.checkSnapshotDeadline deadline
    pure snapshot

/-- `snapshot_owned_until_with_policy`. -/
def LiveMapping.snapshotOwnedUntilWithPolicy : Except ShmSnapshotError OwnedShmSnapshot :=
  match validateMappingShape L.address L.len with
  | .error error => .error (.validation error)
  | .ok () => (L.takeSnapshot deadline policy).run' 0

end

end CrashMonitor.Shm
