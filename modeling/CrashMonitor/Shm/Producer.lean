import CrashMonitor.Shm.Layout

/-!
# Shared memory — producer SDK

The calls of `crash_monitor_producer.h` as programs over the mapping, one
memory step at a time: atomic loads and stores and the compare-and-exchange
are single steps, plain field stores are single stores at the field's
width, and `memcpy`/`memset` go byte by byte. Stores truncate to the width
of the field, as the C integer types do.
-/

namespace CrashMonitor.Shm

open Bytes Interleave SharedMemory

/-! ## Texts -/

/-- A `const char*`: `NULL`, or memory that holds a terminator (everything
from the first zero byte on is irrelevant). -/
abbrev CString := Option (List UInt8)

structure BreadcrumbArgs where
  threadSlot : UInt32
  threadId : UInt32
  timestampNs : UInt64
  category : UInt16
  severity : UInt16
  file : CString
  line : UInt16
  message : CString
  deriving DecidableEq

section

variable (key value : CString) (ring : Nat) (args : BreadcrumbArgs) (generation : Nat)

/-- The bytes before the terminator. -/
def CString.bytes : CString → List UInt8
  | none => []
  | some bs => bs.takeWhile (· ≠ 0)

/-- `strlen`, zero for `NULL`. -/
def CString.strlen (src : CString) : Nat := src.bytes.length

/-- `crash_monitor_copy_text`. -/
def crashMonitorCopyText (dst size : Nat) (src : CString) : MemProg Unit :=
  if size = 0 then pure ()
  else do
    let length := if src.strlen ≥ size then size - 1 else src.strlen
    storeBytes dst (src.bytes.take length)
    storeBytes (dst + length) (List.replicate (size - length) 0)

/-- The bytes `crash_monitor_copy_text` leaves in a field of `size` bytes. -/
def fieldBytes (size : Nat) (src : CString) : List UInt8 :=
  src.bytes.take (size - 1) ++ List.replicate (size - (src.bytes.take (size - 1)).length) 0

/-! ## Seqlocks -/

/-- `sut_shm_seqlock_try_begin`: one attempt, answering the odd writer token.
An even 32-bit value has a successor that still fits. -/
def sutShmSeqlockTryBegin : MemProg (Option Nat) := do
  let observed ← load generation 4
  if observed % 2 ≠ 0 then pure none
  else do
    let ok ← cas generation 4 observed (observed + 1)
    if ok then pure (some (observed + 1)) else pure none

/-- `sut_shm_seqlock_end`. -/
def sutShmSeqlockEnd (oddGeneration : Nat) : MemProg Unit :=
  storeWord generation 4 (oddGeneration + 1)

/-! ## Calls -/

/-- Offset of the breadcrumb in slot `index` of ring `ring`. -/
def crumbOffset (index : Nat) : Nat := ringOffset ring + index * breadcrumbSize

/-- The payload part of `crash_monitor_add_breadcrumb`: claim-to-release
writes to the ring. -/
def writeBreadcrumb : MemProg Unit := do
  let writeIdx ← load (ringOffset ring + ringWriteIdxOffset) 4
  let index := writeIdx % crumbRingCapacity
  let crumb := crumbOffset ring index
  storeBytes crumb (List.replicate breadcrumbSize 0)
  storeWord (crumb + crumbTimestampOffset) 8 args.timestampNs.toNat
  storeWord (crumb + crumbThreadIdOffset) 4 args.threadId.toNat
  storeWord (crumb + crumbCategoryOffset) 2 args.category.toNat
  storeWord (crumb + crumbSeverityOffset) 2 args.severity.toNat
  storeWord (crumb + crumbLineOffset) 2 args.line.toNat
  crashMonitorCopyText (crumb + crumbFileOffset) breadcrumbFileLen args.file
  crashMonitorCopyText (crumb + crumbMessageOffset) breadcrumbMessageLen args.message
  storeWord (ringOffset ring + ringTidOffset) 4 args.threadId.toNat
  storeWord (ringOffset ring + ringWriteIdxOffset) 4 (index + 1)
  let count ← load (ringOffset ring + ringCountFieldOffset) 4
  storeWord (ringOffset ring + ringCountFieldOffset) 4 (count + 1)

/-- `if (ring_count <= thread_slot)`, publish the slot's ring. -/
def registerRing (ringCount slot : Nat) : MemProg Unit :=
  if ringCount ≤ slot then storeWord ringCountOffset 4 (slot + 1) else pure ()

/-- `if (registry_odd != 0u) sut_shm_seqlock_end(..)`. -/
def endRegistry (registryOdd : Nat) : MemProg Unit :=
  if registryOdd ≠ 0 then
    sutShmSeqlockEnd registryGenerationOffset registryOdd
  else pure ()

/-- `crash_monitor_add_breadcrumb` once the registry question is settled:
`registryOdd` is the registry token, zero if it was not claimed. -/
def addBreadcrumbTo (registryOdd ringCount : Nat) : MemProg Int := do
  let slot := args.threadSlot.toNat
  let odd ← sutShmSeqlockTryBegin (ringOffset slot + ringGenerationOffset)
  match odd with
  | none => do
    endRegistry registryOdd
    pure 1
  | some odd => do
    writeBreadcrumb slot args
    sutShmSeqlockEnd (ringOffset slot + ringGenerationOffset) odd
    registerRing ringCount slot
    endRegistry registryOdd
    pure 0

/-- `crash_monitor_add_breadcrumb`. -/
def crashMonitorAddBreadcrumb : MemProg Int :=
  if args.threadSlot.toNat ≥ crumbMaxThreads ∨
      args.category.toNat > crumbCategoryMax ∨ args.severity.toNat > crumbSeverityMax then pure (-1)
  else do
    let slot := args.threadSlot.toNat
    let ringCount ← load ringCountOffset 4
    if ringCount ≤ slot then do
      let registryOdd ← sutShmSeqlockTryBegin registryGenerationOffset
      match registryOdd with
      | none => pure 1
      | some registryOdd => do
        -- another registrar may have published the slot meanwhile
        let ringCount ← load ringCountOffset 4
        addBreadcrumbTo args registryOdd ringCount
    else addBreadcrumbTo args 0 ringCount

/-- `crash_monitor_set_annotation`. The count is a signed word: above
`2^31` it is negative. -/
def crashMonitorSetAnnotation : MemProg Int := do
  let odd ← sutShmSeqlockTryBegin contextGenerationOffset
  match odd with
  | none => pure 1
  | some odd => do
    let count ← load (contextOffset + annotationCountOffset) 4
    if count ≥ 2 ^ 31 ∨ count ≥ maxAnnotations then do
      sutShmSeqlockEnd contextGenerationOffset odd
      pure (-1)
    else do
      let count ← load (contextOffset + annotationCountOffset) 4
      storeWord (contextOffset + annotationCountOffset) 4 (count + 1)
      let pair := contextOffset + annotationsOffset + count * annotationSize
      crashMonitorCopyText pair annotationKeyLen key
      crashMonitorCopyText (pair + annotationKeyLen) annotationValueLen value
      sutShmSeqlockEnd contextGenerationOffset odd
      pure 0

/-- `crash_monitor_set_extension`. -/
def crashMonitorSetExtension : MemProg Int := do
  let odd ← sutShmSeqlockTryBegin settingsGenerationOffset
  match odd with
  | none => pure 1
  | some odd => do
    let count ← load (settingsOffset + entryCountOffset) 4
    if count ≥ producerExtensionMaxEntries then do
      sutShmSeqlockEnd settingsGenerationOffset odd
      pure (-1)
    else do
      storeWord settingsOffset 4 producerExtensionVersion
      let count ← load (settingsOffset + entryCountOffset) 4
      storeWord (settingsOffset + entryCountOffset) 4 (count + 1)
      let entry := settingsOffset + entriesOffset + count * extensionEntrySize
      crashMonitorCopyText entry extensionKeyLen key
      crashMonitorCopyText (entry + extensionKeyLen) extensionValueLen value
      sutShmSeqlockEnd settingsGenerationOffset odd
      pure 0

end

/-- `crash_monitor_register_attachment`. -/
def crashMonitorRegisterAttachment (label path : CString) : MemProg Int := do
  let odd ← sutShmSeqlockTryBegin attachmentsGenerationOffset
  match odd with
  | none => pure 1
  | some odd => do
    let count ← load attachmentOffset 4
    if count ≥ maxAttachments then do
      sutShmSeqlockEnd attachmentsGenerationOffset odd
      pure (-1)
    else do
      let count ← load attachmentOffset 4
      storeWord attachmentOffset 4 (count + 1)
      let slot := attachmentOffset + attachmentSlotsOffset + count * attachmentSlotSize
      crashMonitorCopyText slot attachmentLabelLen label
      crashMonitorCopyText (slot + attachmentLabelLen) attachmentPathLen path
      sutShmSeqlockEnd attachmentsGenerationOffset odd
      pure 0

/-- `crash_monitor_publish_screenshot`; `rgba` is `NULL` or the pixel bytes,
`rgba_size` many. -/
def crashMonitorPublishScreenshot (slot : UInt32) (timestampNs : UInt64)
    (tier : UInt32) (rgba : Option (List UInt8)) : MemProg Int :=
  match rgba with
  | none => pure (-1)
  | some pixels =>
    if slot.toNat ≥ screenshotSlots ∨ pixels.length ≠ screenshotBytesPerSlot
    then pure (-1)
    else do
      let valid := screenshotGenerationsOffset + slot.toNat * 4
      let odd ← sutShmSeqlockTryBegin valid
      match odd with
      | none => pure 1
      | some odd => do
        storeBytes (screenshotDataOffset + slot.toNat * screenshotBytesPerSlot) pixels
        storeWord (screenshotTimestampsOffset + slot.toNat * 8) 8 timestampNs.toNat
        storeWord (screenshotTiersOffset + slot.toNat * 4) 4 tier.toNat
        sutShmSeqlockEnd valid odd
        pure 0

/-- `crash_monitor_heartbeat`. -/
def crashMonitorHeartbeat : MemProg Nat := addFetch heartbeatOffset 8 1

/-- `crash_monitor_mark_ready`. -/
def crashMonitorMarkReady : MemProg Unit := do
  let _ ← crashMonitorHeartbeat
  storeWord producerReadyOffset 4 shmProducerReady

/-- A call of the SDK. -/
inductive SdkCall where
  | addBreadcrumb (args : BreadcrumbArgs)
  | annotate (key value : CString)
  | setExtension (key value : CString)
  | registerAttachment (label path : CString)
  | publishScreenshot (slot : UInt32) (timestampNs : UInt64) (tier : UInt32)
      (rgba : Option (List UInt8))
  | heartbeat
  | markReady
  deriving DecidableEq

/-- The program of a call; those without a status answer 0. -/
def SdkCall.prog : SdkCall → MemProg Int
  | .addBreadcrumb args => crashMonitorAddBreadcrumb args
  | .annotate key value => crashMonitorSetAnnotation key value
  | .setExtension key value => crashMonitorSetExtension key value
  | .registerAttachment label path => crashMonitorRegisterAttachment label path
  | .publishScreenshot slot timestampNs tier rgba =>
    crashMonitorPublishScreenshot slot timestampNs tier rgba
  | .heartbeat => do
    let _ ← crashMonitorHeartbeat
    pure 0
  | .markReady => do
    crashMonitorMarkReady
    pure 0

end CrashMonitor.Shm
