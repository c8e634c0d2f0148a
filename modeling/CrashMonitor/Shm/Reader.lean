import CrashMonitor.Lib.MachineInt
import CrashMonitor.Lib.StableSort
import CrashMonitor.Lib.Utf8
import CrashMonitor.Shm.Snapshot

/-!
# Shared memory — reading an owned snapshot

The reader functions of `OwnedShmSnapshot`. They see the owned bytes only,
through checked ranges. A text field decodes strictly or not at all, and
what a failed decode takes with it differs from unit to unit: one
breadcrumb, one attachment, but the whole context and the whole extension.
-/

namespace CrashMonitor.Shm

open Bytes MachineInt StableSort

/-! ## Texts -/

/-- `char::is_control`. -/
def isControl (c : Char) : Bool := c.val.toNat < 0x20 || (0x7F ≤ c.val.toNat && c.val.toNat < 0xA0)

/-- `decode_bounded_c_string`. -/
def decodeBoundedCString (bytes : List UInt8) : Option String :=
  if 0 ∈ bytes then do
    let value ← Utf8.decode (bytes.takeWhile (· ≠ 0))
    if value.any isControl then none else some (String.ofList value)
  else none

/-! ## Rust-native types -/

structure RawBreadcrumb where
  timestampNs : Nat
  threadId : Nat
  category : Nat
  severity : Nat
  file : String
  line : Nat
  message : String
  deriving DecidableEq, Repr

structure RawCrashContext where
  heartbeatCounter : Nat
  sessionStartNs : Nat
  sessionId : String
  annotations : List (String × String)
  appVersion : String
  buildNumber : Nat
  gitHash : String
  gitDirty : Bool
  buildType : String
  buildPreset : String
  buildTimestamp : String
  compiler : String
  osVersion : String
  deriving DecidableEq, Repr

structure RawSettingsSnapshot where
  schemaVersion : Nat
  values : List (String × String)
  deriving DecidableEq, Repr

structure RawAttachment where
  label : String
  path : String
  deriving DecidableEq, Repr

structure RawScreenshot where
  timestampNs : Nat
  tier : Nat
  width : Nat
  height : Nat
  rgba : List UInt8
  deriving DecidableEq, Repr

inductive ScreenshotBudgetExhaustion where
  | frameLimit
  | byteLimit
  | deadline
  deriving DecidableEq, Repr

structure ScreenshotReadOutcome where
  screenshots : List RawScreenshot
  budgetExhaustion : Option ScreenshotBudgetExhaustion
  unreadableSlots : List Nat
  deriving DecidableEq, Repr

namespace OwnedShmSnapshot

variable (snapshot : OwnedShmSnapshot)

/-- `read_string`. -/
def readString (offset len : Nat) : Option String :=
  (snapshot.range offset len).bind decodeBoundedCString

/-! ## Breadcrumbs -/

/-- `read_breadcrumb`. -/
def readBreadcrumb (base : Nat) : Option RawBreadcrumb := do
  let category ← snapshot.readU16 (base + crumbCategoryOffset)
  let severity ← snapshot.readU16 (base + crumbSeverityOffset)
  if category > crumbCategoryMax ∨ severity > crumbSeverityMax then none
  else do
    let timestampNs ← snapshot.readU64 (base + crumbTimestampOffset)
    let threadId ← snapshot.readU32 (base + crumbThreadIdOffset)
    let file ← snapshot.readString (base + crumbFileOffset) breadcrumbFileLen
    let line ← snapshot.readU16 (base + crumbLineOffset)
    let message ← snapshot.readString (base + crumbMessageOffset) breadcrumbMessageLen
    pure { timestampNs, threadId, category, severity, file, line, message }

/-- The slot that is `reverseIndex` records behind the newest one. -/
def reverseSlot (writeIdx reverseIndex : Nat) : Nat :=
  (if writeIdx > reverseIndex then writeIdx - reverseIndex - 1
    else crumbRingCapacity + writeIdx - reverseIndex - 1) % crumbRingCapacity

/-- The records of one ring, newest first; unreadable and empty ones are
skipped. -/
def readRing (ring count writeIdx : Nat) : List RawBreadcrumb :=
  (List.range (min count crumbRingCapacity)).filterMap fun reverseIndex => (snapshot.readBreadcrumb
      (ring + reverseSlot writeIdx reverseIndex * breadcrumbSize)).filter (·.timestampNs ≠ 0)

/-- The loop over the rings, left at the first whose indices are unreadable. -/
def readRings : List Nat → List RawBreadcrumb
  | [] => []
  | index :: rest =>
    match snapshot.readU32 (ringOffset index + ringCountFieldOffset),
      snapshot.readU32 (ringOffset index + ringWriteIdxOffset) with
    | some count, some writeIdx =>
      snapshot.readRing (ringOffset index) count writeIdx ++ readRings rest
    | _, _ => []

/-- `read_breadcrumbs`. -/
def readBreadcrumbs : List RawBreadcrumb :=
  match snapshot.readU32 ringCountOffset with
  | none => []
  | some ringCount =>
    if ringCount > crumbMaxThreads then []
    else sortByKey RawBreadcrumb.timestampNs (snapshot.readRings (List.range ringCount))

/-! ## Context, extension, attachments -/

/-- A key and a value text side by side. -/
def readPair (base keyLen valueLen : Nat) : Option (String × String) := do
  let key ← snapshot.readString base keyLen
  let value ← snapshot.readString (base + keyLen) valueLen
  pure (key, value)

/-- The annotations of `read_context`: all of them, or none. The count is a
signed word. -/
def readAnnotations : Option (List (String × String)) := do
  let count ← snapshot.readU32 (contextOffset + annotationCountOffset)
  if count ≥ 2 ^ 31 ∨ count > maxAnnotations then none
  else
    (List.range count).mapM fun index => snapshot.readPair
        (contextOffset + annotationsOffset + index * annotationSize)
        annotationKeyLen annotationValueLen

/-- `read_context`. -/
def readContext : Option RawCrashContext :=
  if snapshot.consistencyIssues.any
      (fun issue => match issue with | .context .. => true | _ => false) then
    none
  else do
    let heartbeatCounter ← snapshot.readU64 heartbeatOffset
    let sessionStartNs ← snapshot.readU64 (contextOffset + sessionStartOffset)
    let sessionId ← snapshot.readString (contextOffset + sessionIdOffset) contextSessionIdLen
    let appVersion ← snapshot.readString (contextOffset + appVersionOffset) contextAppVersionLen
    let buildNumber ← snapshot.readU32 (contextOffset + buildNumberOffset)
    let gitHash ← snapshot.readString (contextOffset + gitHashOffset) contextGitHashLen
    let gitDirty ← snapshot.readU8 (contextOffset + gitDirtyOffset)
    let buildType ← snapshot.readString (contextOffset + buildTypeOffset) contextBuildTypeLen
    let buildPreset ← snapshot.readString (contextOffset + buildPresetOffset) contextBuildPresetLen
    let buildTimestamp ← snapshot.readString
      (contextOffset + buildTimestampOffset) contextBuildTimestampLen
    let compiler ← snapshot.readString (contextOffset + compilerOffset) contextCompilerLen
    let osVersion ← snapshot.readString (contextOffset + osVersionOffset) contextOsVersionLen
    let annotations ← snapshot.readAnnotations
    pure {
      heartbeatCounter, sessionStartNs, sessionId, annotations, appVersion
      buildNumber, gitHash, gitDirty := gitDirty ≠ 0, buildType, buildPreset
      buildTimestamp, compiler, osVersion }

/-- `read_settings`; an empty key rejects the whole extension. -/
def readSettings : Option RawSettingsSnapshot :=
  if snapshot.consistencyIssues.any
      (fun issue => match issue with | .settings .. => true | _ => false) then
    none
  else do
    let schemaVersion ← snapshot.readU32 settingsOffset
    if schemaVersion ≠ producerExtensionVersion then none
    else do
      let entryCount ← snapshot.readU32 (settingsOffset + entryCountOffset)
      if entryCount > producerExtensionMaxEntries then none
      else do
        let values ← (List.range entryCount).mapM fun index => do
          let entry ← snapshot.readPair
            (settingsOffset + entriesOffset + index * extensionEntrySize)
            extensionKeyLen extensionValueLen
          if entry.1 = "" then none else some entry
        pure { schemaVersion, values }

/-- `read_attachments`; an unreadable slot or an empty path is skipped. -/
def readAttachments : List RawAttachment :=
  if snapshot.consistencyIssues.any
      (fun issue => match issue with | .attachments .. => true | _ => false)
  then []
  else
    match snapshot.readU32 attachmentOffset with
    | none => []
    | some count =>
      if count > maxAttachments then []
      else (List.range count).filterMap fun index => do
        let slot ← snapshot.readPair
          (attachmentOffset + attachmentSlotsOffset + index * attachmentSlotSize)
          attachmentLabelLen attachmentPathLen
        if slot.2 = "" then none else some ⟨slot.1, slot.2⟩

/-! ## Screenshots -/

/-- A published slot: index, timestamp, tier. -/
structure Candidate where
  index : Nat
  timestampNs : Nat
  tier : Nat
  deriving DecidableEq, Repr

/-- The scan of `read_screenshots_bounded`: candidates and unreadable slots. -/
def scanSlots : List Nat → List Candidate × List Nat
  | [] => ([], [])
  | index :: rest =>
    match snapshot.readU32 (screenshotGenerationsOffset + index * 4) with
    | none => ([], [])
    | some valid =>
      let later := scanSlots rest
      if valid = 0 ∨ valid % 2 ≠ 0 then later
      else
        match snapshot.readU64 (screenshotTimestampsOffset + index * 8),
          snapshot.readU32 (screenshotTiersOffset + index * 4) with
        | some timestampNs, some tier => (⟨index, timestampNs, tier⟩ :: later.1, later.2)
        | _, _ => (later.1, index :: later.2)

/-- Capture priority: lower tier, then newer, then lower slot. -/
def Candidate.before (left right : Candidate) : Bool :=
  left.tier < right.tier || (left.tier == right.tier && (right.timestampNs < left.timestampNs ||
      (right.timestampNs == left.timestampNs && left.index ≤ right.index)))

/-- The copy loop of `read_screenshots_bounded`, for slots of any size; `calls`
counts the questions to `should_continue`. -/
def copyScreenshots (slotBytes maxFrames maxBytes : Nat) (shouldContinue : Nat → Bool) :
    List Candidate → (screenshots : List RawScreenshot) →
    (copiedBytes calls : Nat) → (unreadable : List Nat) → ScreenshotReadOutcome
  | [], screenshots, _, _, unreadable => ⟨screenshots, none, unreadable⟩
  | candidate :: rest, screenshots, copiedBytes, calls, unreadable =>
    let next := copiedBytes + slotBytes
    if screenshots.length ≥ maxFrames then
      ⟨screenshots, some .frameLimit, unreadable⟩
    else if next > u64Max ∨ next > maxBytes then
      ⟨screenshots, some .byteLimit, unreadable⟩
    else if shouldContinue calls = false then
      ⟨screenshots, some .deadline, unreadable⟩
    else
      match snapshot.range (screenshotDataOffset + candidate.index * slotBytes) slotBytes with
      | none => copyScreenshots slotBytes maxFrames maxBytes shouldContinue rest
          screenshots copiedBytes (calls + 1) (unreadable ++ [candidate.index])
      | some rgba => copyScreenshots slotBytes maxFrames maxBytes shouldContinue rest
          (screenshots ++ [⟨candidate.timestampNs, candidate.tier, 480, 270, rgba⟩])
          next (calls + 1) unreadable

/-- `read_screenshots_bounded`. -/
def readScreenshotsBounded (maxFrames maxBytes : Nat)
    (shouldContinue : Nat → Bool) : ScreenshotReadOutcome :=
  let scan := snapshot.scanSlots (List.range screenshotSlots)
  snapshot.copyScreenshots screenshotBytesPerSlot maxFrames maxBytes shouldContinue
    (scan.1.mergeSort Candidate.before) [] 0 0 scan.2

/-- `raw_breadcrumb_bytes_owned`. -/
def rawBreadcrumbBytesOwned : List UInt8 := (snapshot.range section2Offset section2Size).getD []

/-- `raw_context_bytes_owned`. -/
def rawContextBytesOwned : List UInt8 :=
  (snapshot.range contextOffset (crashContextSize + settingsSize)).getD []

end OwnedShmSnapshot

/-! ## Everything a snapshot tells -/

/-- The values of all reader functions. -/
structure Readings where
  breadcrumbs : List RawBreadcrumb
  context : Option RawCrashContext
  settings : Option RawSettingsSnapshot
  attachments : List RawAttachment
  screenshots : ScreenshotReadOutcome
  rawBreadcrumbBytes : List UInt8
  rawContextBytes : List UInt8
  deriving DecidableEq

def OwnedShmSnapshot.readings (snapshot : OwnedShmSnapshot)
    (maxFrames maxBytes : Nat) (shouldContinue : Nat → Bool) : Readings where
  breadcrumbs := snapshot.readBreadcrumbs
  context := snapshot.readContext
  settings := snapshot.readSettings
  attachments := snapshot.readAttachments
  screenshots := snapshot.readScreenshotsBounded maxFrames maxBytes shouldContinue
  rawBreadcrumbBytes := snapshot.rawBreadcrumbBytesOwned
  rawContextBytes := snapshot.rawContextBytesOwned

end CrashMonitor.Shm
