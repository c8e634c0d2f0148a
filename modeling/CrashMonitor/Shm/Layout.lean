import CrashMonitor.Lib.Seqlock

/-!
# Shared memory — layout

The byte layout of `crash_shm.h`: section offsets, field offsets and
bounds, under the names the Rust reader gives them. The constants are
`simp` lemmas, so a goal about offsets reduces to numerals and goes to
`omega`.

`publicationLayout` is the division of the mapping into publication units.
That its words and payloads do not overlap is part of the structure.
-/

namespace CrashMonitor.Shm

open Bytes

/-! ## Constants -/

@[simp] def shmMagic : Nat := 0x434D4F4E
@[simp] def shmVersion : Nat := 5
@[simp] def shmCanary : Nat := 0xDEADBEEF
@[simp] def shmProducerReady : Nat := 1
@[simp] def crumbRingCapacity : Nat := 512
@[simp] def crumbMaxThreads : Nat := 8
@[simp] def crumbCategoryMax : Nat := 10
@[simp] def crumbSeverityMax : Nat := 2
@[simp] def maxAnnotations : Nat := 16
@[simp] def maxAttachments : Nat := 4
@[simp] def producerExtensionVersion : Nat := 1
@[simp] def producerExtensionMaxEntries : Nat := 4
@[simp] def screenshotSlots : Nat := 96
@[simp] def screenshotBytesPerSlot : Nat := 518400

/-! ## Sizes of the schema's structs -/

@[simp] def breadcrumbSize : Nat := 64
@[simp] def crumbRingSize : Nat := 32784
@[simp] def annotationSize : Nat := 96
@[simp] def crashContextSize : Nat := 1760
@[simp] def extensionEntrySize : Nat := 36
@[simp] def settingsSize : Nat := 160
@[simp] def attachmentSlotSize : Nat := 288
@[simp] def attachmentSectionSize : Nat := 1160

/-! ## Sections -/

@[simp] def section1Offset : Nat := 0
@[simp] def section1Size : Nat := 64
@[simp] def section2Offset : Nat := 64
@[simp] def section2Size : Nat := 262280
@[simp] def contextOffset : Nat := 262344
@[simp] def settingsOffset : Nat := 264104
@[simp] def attachmentOffset : Nat := 264264
@[simp] def section4Offset : Nat := 265424
@[simp] def footerOffset : Nat := 50033360
@[simp] def shmTotalSize : Nat := 50033364

/-! ## Fields -/

@[simp] def registryGenerationOffset : Nat := 16
@[simp] def contextGenerationOffset : Nat := 32
@[simp] def settingsGenerationOffset : Nat := 36
@[simp] def attachmentsGenerationOffset : Nat := 40
@[simp] def producerReadyOffset : Nat := 44
@[simp] def ringCountOffset : Nat := 262336
@[simp] def ringsOffset : Nat := 64
@[simp] def heartbeatOffset : Nat := 262344
@[simp] def screenshotGenerationsOffset : Nat := 265424
@[simp] def screenshotTimestampsOffset : Nat := 265808
@[simp] def screenshotTiersOffset : Nat := 266576
@[simp] def screenshotDataOffset : Nat := 266960

/-- Offset of ring `index`. -/
@[simp] def ringOffset (index : Nat) : Nat := ringsOffset + index * crumbRingSize

/-! Within a ring. -/

@[simp] def ringWriteIdxOffset : Nat := 32768
@[simp] def ringCountFieldOffset : Nat := 32772
@[simp] def ringTidOffset : Nat := 32776
@[simp] def ringGenerationOffset : Nat := 32780

/-! Within a breadcrumb. -/

@[simp] def crumbTimestampOffset : Nat := 0
@[simp] def crumbThreadIdOffset : Nat := 8
@[simp] def crumbCategoryOffset : Nat := 12
@[simp] def crumbSeverityOffset : Nat := 14
@[simp] def crumbFileOffset : Nat := 16
@[simp] def crumbLineOffset : Nat := 32
@[simp] def crumbMessageOffset : Nat := 36
@[simp] def breadcrumbFileLen : Nat := 16
@[simp] def breadcrumbMessageLen : Nat := 28

/-! Within the context. -/

@[simp] def sessionStartOffset : Nat := 8
@[simp] def sessionIdOffset : Nat := 16
@[simp] def contextSessionIdLen : Nat := 37
@[simp] def appVersionOffset : Nat := 53
@[simp] def contextAppVersionLen : Nat := 16
@[simp] def buildNumberOffset : Nat := 72
@[simp] def gitHashOffset : Nat := 76
@[simp] def contextGitHashLen : Nat := 16
@[simp] def gitDirtyOffset : Nat := 92
@[simp] def buildTypeOffset : Nat := 93
@[simp] def contextBuildTypeLen : Nat := 16
@[simp] def buildPresetOffset : Nat := 109
@[simp] def contextBuildPresetLen : Nat := 16
@[simp] def buildTimestampOffset : Nat := 125
@[simp] def contextBuildTimestampLen : Nat := 24
@[simp] def compilerOffset : Nat := 149
@[simp] def contextCompilerLen : Nat := 32
@[simp] def osVersionOffset : Nat := 181
@[simp] def contextOsVersionLen : Nat := 32
@[simp] def annotationCountOffset : Nat := 216
@[simp] def annotationsOffset : Nat := 220
@[simp] def annotationKeyLen : Nat := 32
@[simp] def annotationValueLen : Nat := 64

/-! Within the extension and the attachment section. -/

@[simp] def entryCountOffset : Nat := 4
@[simp] def entriesOffset : Nat := 8
@[simp] def extensionKeyLen : Nat := 16
@[simp] def extensionValueLen : Nat := 20
@[simp] def attachmentSlotsOffset : Nat := 8
@[simp] def attachmentLabelLen : Nat := 32
@[simp] def attachmentPathLen : Nat := 256

/-! ## Publication units -/

/-- The independently published parts of the mapping. -/
inductive PublicationUnit where
  | registry
  | ring (index : Fin 8)
  | context
  | settings
  | attachments
  | screenshot (index : Fin 96)
  deriving DecidableEq, Repr

namespace PublicationUnit

/-- Offset of a unit's generation word. -/
def generation : PublicationUnit → Nat
  | registry => registryGenerationOffset
  | ring index => ringOffset index + ringGenerationOffset
  | context => contextGenerationOffset
  | settings => settingsGenerationOffset
  | attachments => attachmentsGenerationOffset
  | screenshot index => screenshotGenerationsOffset + index * 4

/-- The bytes a unit publishes: the registry its ring count, a ring all but
its generation, the context all but the heartbeat. -/
def Payload : PublicationUnit → Nat → Prop
  | registry, a => ringCountOffset ≤ a ∧ a < ringCountOffset + 4
  | ring index, a => ringOffset index ≤ a ∧ a < ringOffset index + ringGenerationOffset
  | context, a => contextOffset + 8 ≤ a ∧ a < contextOffset + crashContextSize
  | settings, a => settingsOffset ≤ a ∧ a < settingsOffset + settingsSize
  | attachments, a => attachmentOffset ≤ a ∧ a < attachmentOffset + attachmentSectionSize
  | screenshot index, a =>
    (screenshotTimestampsOffset + index * 8 ≤ a ∧
      a < screenshotTimestampsOffset + index * 8 + 8) ∨
    (screenshotTiersOffset + index * 4 ≤ a ∧
      a < screenshotTiersOffset + index * 4 + 4) ∨
    (screenshotDataOffset + index * screenshotBytesPerSlot ≤ a ∧
      a < screenshotDataOffset + index * screenshotBytesPerSlot + screenshotBytesPerSlot)

/-- Whether a unit lies in the breadcrumb section. -/
def inBreadcrumbs : PublicationUnit → Bool
  | registry => true
  | ring _ => true
  | _ => false

end PublicationUnit

/-- Words published on their own: the readiness flag and the heartbeat. -/
def FreeWord (a : Nat) : Prop :=
  (producerReadyOffset ≤ a ∧ a < producerReadyOffset + 4) ∨
    (heartbeatOffset ≤ a ∧ a < heartbeatOffset + 8)

open PublicationUnit

theorem generation_disjoint {u v : PublicationUnit} (h : u ≠ v) :
    u.generation + 4 ≤ v.generation ∨ v.generation + 4 ≤ u.generation := by
  cases u <;> cases v <;>
    simp only [generation, registryGenerationOffset, contextGenerationOffset,
      settingsGenerationOffset, attachmentsGenerationOffset, ringOffset,
      ringsOffset, crumbRingSize, ringGenerationOffset,
      screenshotGenerationsOffset, ne_eq, reduceCtorEq, not_true_eq_false,
      not_false_eq_true, ring.injEq, screenshot.injEq, Fin.ext_iff] at h ⊢ <;>
    omega

theorem generation_payload {u v : PublicationUnit} {a}
    (h : v.Payload a) : a < u.generation ∨ u.generation + 4 ≤ a := by
  cases u <;> cases v <;> simp [generation, Payload] at h ⊢ <;> omega

theorem payload_unique {u v : PublicationUnit} {a} (hu : u.Payload a)
    (hv : v.Payload a) : u = v := by
  cases u <;> cases v <;> simp [Payload, Fin.ext_iff] at hu hv ⊢ <;> omega

/-- The mapping as seqlock units. -/
def publicationLayout : Seqlock.Layout PublicationUnit where
  gen := generation
  payload := Payload
  free := FreeWord
  gen_gen := generation_disjoint
  gen_payload := generation_payload
  payload_unique := payload_unique
  free_gen := by
    intro u a h
    cases u <;> simp [generation, FreeWord] at h ⊢ <;> omega
  free_payload := by
    intro u a h hp
    cases u <;> simp [Payload, FreeWord] at h hp <;> omega

/-! ## The mapping before any publication -/

/-- The schema metadata a snapshot is validated against. -/
structure ValidHeader (m : Mem) : Prop where
  magic : m.load section1Offset 4 = shmMagic
  version : m.load (section1Offset + 4) 4 = shmVersion
  canary : m.load footerOffset 4 = shmCanary

/-- A valid mapping in which nothing was published: zero but for the
metadata and the version word of the extension. -/
structure FreshMapping (m : Mem) : Prop extends ValidHeader m where
  registry : ∀ a, registryGenerationOffset ≤ a → a < registryGenerationOffset + 4 → m a = 0
  generations : ∀ a, contextGenerationOffset ≤ a → a < attachmentsGenerationOffset + 4 → m a = 0
  payload : ∀ a, section1Size ≤ a → a < footerOffset →
    ¬ (settingsOffset ≤ a ∧ a < settingsOffset + 4) → m a = 0

/-- The content `create_shared_memory` gives a new mapping. -/
def createdMapping : Mem :=
  let m : Mem := fun _ => 0
  let m := m.store 0 4 shmMagic
  let m := m.store 4 4 shmVersion
  let m := m.store 8 4 crumbRingCapacity
  let m := m.store 12 4 crumbMaxThreads
  let m := m.store registryGenerationOffset 4 0
  let m := m.store 20 4 screenshotSlots
  let m := m.store 24 4 480
  let m := m.store 28 4 270
  let m := m.store contextGenerationOffset 4 0
  let m := m.store settingsGenerationOffset 4 0
  let m := m.store attachmentsGenerationOffset 4 0
  let m := m.store producerReadyOffset 4 0
  let m := m.store settingsOffset 4 producerExtensionVersion
  m.store footerOffset 4 shmCanary

theorem createdMapping_fresh : FreshMapping createdMapping where
  magic := by decide +kernel
  version := by decide +kernel
  canary := by decide +kernel
  registry := by
    intro a h1 h2
    obtain ⟨k, rfl⟩ := Nat.exists_eq_add_of_le h1
    have hk : k = 0 ∨ k = 1 ∨ k = 2 ∨ k = 3 := by omega
    rcases hk with rfl | rfl | rfl | rfl <;> decide +kernel
  generations := by
    intro a h1 h2
    obtain ⟨k, rfl⟩ := Nat.exists_eq_add_of_le h1
    have hk : k < 12 := by
      simp at h2
      omega
    have hall : ∀ k < 12, createdMapping (contextGenerationOffset + k) = 0 := by decide +kernel
    exact hall k hk
  payload := by
    intro a h1 h2 h3
    simp at h1 h2 h3
    unfold createdMapping
    repeat
      rw [Mem.store_outside (by
        first
        | omega
        | simp
          omega)]

theorem FreshMapping.generation_eq_zero {m} (h : FreshMapping m)
    (u : PublicationUnit) : m.load u.generation 4 = 0 := by
  refine Mem.load_eq_zero fun a h1 h2 => ?_
  cases u with
  | registry => exact h.registry a h1 h2
  | ring index | screenshot index =>
    refine h.payload a ?_ ?_ ?_ <;>
      simp [PublicationUnit.generation] at h1 h2 ⊢ <;>
      omega
  | _ =>
    refine h.generations a ?_ ?_ <;>
      simp [PublicationUnit.generation] at h1 h2 ⊢ <;>
      omega

end CrashMonitor.Shm
