import CrashMonitor.Lib.RingLog
import CrashMonitor.Shm.Producer

/-!
# Shared memory — what was published

Seen from outside, the SDK keeps a journal: for every slot the breadcrumbs
accepted so far, oldest first, the lists of annotations, extension entries
and attachments, and the publications of every screenshot slot. `Represents`
relates a mapping to its journal. A call that runs alone answers the status
the journal gives and leaves a mapping of the journal's next state
(`run_represents`), and so does every sequence of calls
(`runCalls_represents`).
-/

namespace CrashMonitor.Shm

open Bytes RingLog SharedMemory Function SdkCall

/-! ## The journal -/

/-- A published screenshot. -/
structure Frame where
  timestampNs : UInt64
  tier : UInt32
  pixels : List UInt8
  deriving DecidableEq

structure Journal where
  crumbs : Fin 8 → List BreadcrumbArgs
  annotations : List (CString × CString)
  extensions : List (CString × CString)
  attachments : List (CString × CString)
  frames : Fin 96 → List Frame

namespace Journal

def empty : Journal where
  crumbs _ := []
  annotations := []
  extensions := []
  attachments := []
  frames _ := []

/-- The next state and the status a call answers. The lists are bounded; the
breadcrumbs and frames are not, they are overwritten in the mapping. -/
def step (j : Journal) : SdkCall → Int × Journal
  | .addBreadcrumb args =>
    if h : args.threadSlot.toNat < crumbMaxThreads ∧
        args.category.toNat ≤ crumbCategoryMax ∧ args.severity.toNat ≤ crumbSeverityMax then
      let slot : Fin 8 := ⟨args.threadSlot.toNat, h.1⟩
      (0, { j with
        crumbs := update j.crumbs slot (j.crumbs slot ++ [args]) })
    else (-1, j)
  | .annotate key value =>
    if j.annotations.length < maxAnnotations then
      (0, { j with annotations := j.annotations ++ [(key, value)] })
    else (-1, j)
  | .setExtension key value =>
    if j.extensions.length < producerExtensionMaxEntries then
      (0, { j with extensions := j.extensions ++ [(key, value)] })
    else (-1, j)
  | .registerAttachment label path =>
    if j.attachments.length < maxAttachments then
      (0, { j with attachments := j.attachments ++ [(label, path)] })
    else (-1, j)
  | .publishScreenshot slot timestampNs tier (some pixels) =>
    if h : slot.toNat < screenshotSlots ∧ pixels.length = screenshotBytesPerSlot then
      let index : Fin 96 := ⟨slot.toNat, h.1⟩
      (0, { j with
        frames := update j.frames index
          (j.frames index ++ [⟨timestampNs, tier, pixels⟩]) })
    else (-1, j)
  | .publishScreenshot _ _ _ none => (-1, j)
  | .heartbeat => (0, j)
  | .markReady => (0, j)

/-- The calls one after the other, with the status of each. -/
def runCalls (j : Journal) : List SdkCall → List Int × Journal
  | [] => ([], j)
  | call :: calls =>
    let done := j.step call
    let rest := done.2.runCalls calls
    (done.1 :: rest.1, rest.2)

end Journal

/-- The calls that answered 0. -/
def acceptedOf : List SdkCall → List Int → List SdkCall
  | call :: calls, status :: statuses =>
    if status = 0 then call :: acceptedOf calls statuses
    else acceptedOf calls statuses
  | _, _ => []

namespace SdkCall

/-- The breadcrumb a call adds to a slot. -/
def crumbFor (slot : Fin 8) : SdkCall → Option BreadcrumbArgs
  | .addBreadcrumb args =>
    if args.threadSlot.toNat = slot then some args else none
  | _ => none

def annotationPair : SdkCall → Option (CString × CString)
  | .annotate key value => some (key, value)
  | _ => none

def extensionPair : SdkCall → Option (CString × CString)
  | .setExtension key value => some (key, value)
  | _ => none

def attachmentPair : SdkCall → Option (CString × CString)
  | .registerAttachment label path => some (label, path)
  | _ => none

end SdkCall

namespace Journal

variable {α : Type}

/-- A list of the journal that takes one element from every accepted call of
its kind. -/
def Collects (list : Journal → List α) (taken : SdkCall → Option α) : Prop :=
  ∀ j call, list (j.step call).2 = list j ++ if (j.step call).1 = 0 then (taken call).toList else []

/-- Over a run such a list takes the accepted calls in their order. -/
theorem Collects.runCalls {list}
    {taken : SdkCall → Option α} (h : Collects list taken) (j : Journal) (calls : List SdkCall) :
    list (j.runCalls calls).2 =
      list j ++ (acceptedOf calls (j.runCalls calls).1).filterMap taken := by
  induction calls generalizing j with
  | nil => simp [Journal.runCalls, acceptedOf]
  | cons call calls ih =>
    rw [Journal.runCalls]
    rw [ih, h j call, acceptedOf, List.append_assoc]
    split
    · rw [List.filterMap_cons]
      cases taken call <;> rfl
    · rfl

theorem collects_crumbs (slot : Fin 8) : Collects (fun j => j.crumbs slot) (crumbFor slot) := by
  intro j call
  cases call with
  | addBreadcrumb args =>
    rw [step]
    split
    · next hok =>
        by_cases hslot : args.threadSlot.toNat = slot
        · obtain rfl : (⟨args.threadSlot.toNat, hok.1⟩ : Fin 8) = slot := Fin.ext hslot
          simp [crumbFor]
        have hne : slot ≠ ⟨args.threadSlot.toNat, hok.1⟩ :=
          fun heq => hslot (congrArg Fin.val heq).symm
        simp [crumbFor, hslot, update_of_ne hne]
    · simp
  | publishScreenshot slot' timestampNs tier rgba =>
    cases rgba <;> grind [step, crumbFor]
  | _ => grind [step, crumbFor]

theorem collects_annotations : Collects Journal.annotations annotationPair := by
  intro j call
  cases call with
  | publishScreenshot slot timestampNs tier rgba =>
    cases rgba <;> grind [step, annotationPair]
  | _ => grind [step, annotationPair]

theorem collects_extensions : Collects Journal.extensions extensionPair := by
  intro j call
  cases call with
  | publishScreenshot slot timestampNs tier rgba =>
    cases rgba <;> grind [step, extensionPair]
  | _ => grind [step, extensionPair]

theorem collects_attachments : Collects Journal.attachments attachmentPair := by
  intro j call
  cases call with
  | publishScreenshot slot timestampNs tier rgba =>
    cases rgba <;> grind [step, attachmentPair]
  | _ => grind [step, attachmentPair]

end Journal

/-- The calls one after the other on the mapping, with the status of each. -/
def runCalls : List SdkCall → Mem → List Int × Mem
  | [], m => ([], m)
  | call :: calls, m =>
    let done := run call.prog m
    let rest := runCalls calls done.2
    (done.1 :: rest.1, rest.2)

/-! ## How the mapping holds it -/

/-- The breadcrumb at `base` has the fields of `args`. -/
structure CrumbHolds (m : Mem) (base : Nat) (args : BreadcrumbArgs) : Prop where
  timestamp : m.load (base + crumbTimestampOffset) 8 = args.timestampNs.toNat
  threadId : m.load (base + crumbThreadIdOffset) 4 = args.threadId.toNat
  category : m.load (base + crumbCategoryOffset) 2 = args.category.toNat
  severity : m.load (base + crumbSeverityOffset) 2 = args.severity.toNat
  file : m.read (base + crumbFileOffset) breadcrumbFileLen = fieldBytes breadcrumbFileLen args.file
  line : m.load (base + crumbLineOffset) 2 = args.line.toNat
  message : m.read (base + crumbMessageOffset) breadcrumbMessageLen =
    fieldBytes breadcrumbMessageLen args.message

/-- A ring that took the records of `log`. The counter wraps, the write index
stays within the ring. -/
structure RingHolds (m : Mem) (ring : Nat) (log : List BreadcrumbArgs) : Prop where
  writeIdx : m.load (ringOffset ring + ringWriteIdxOffset) 4 =
    writeIndex crumbRingCapacity log.length
  count : m.load (ringOffset ring + ringCountFieldOffset) 4 = log.length % 2 ^ 32
  crumbs : Kept crumbRingCapacity (fun index args => CrumbHolds m (crumbOffset ring index) args) log
  accepted : ∀ args ∈ log, args.category.toNat ≤ crumbCategoryMax ∧
    args.severity.toNat ≤ crumbSeverityMax

/-- A counted table of text pairs: where the count and the pairs are, and the
sizes of the two fields. -/
structure Table where
  countAt : Nat
  base : Nat
  stride : Nat
  keyLen : Nat
  valueLen : Nat
  max : Nat
  count_before : countAt + 4 ≤ base
  fields_fit : keyLen + valueLen ≤ stride
  max_small : max < 2 ^ 31

def annotationTable : Table where
  countAt := contextOffset + annotationCountOffset
  base := contextOffset + annotationsOffset
  stride := annotationSize
  keyLen := annotationKeyLen
  valueLen := annotationValueLen
  max := maxAnnotations
  count_before := by decide
  fields_fit := by decide
  max_small := by decide

def extensionTable : Table where
  countAt := settingsOffset + entryCountOffset
  base := settingsOffset + entriesOffset
  stride := extensionEntrySize
  keyLen := extensionKeyLen
  valueLen := extensionValueLen
  max := producerExtensionMaxEntries
  count_before := by decide
  fields_fit := by decide
  max_small := by decide

def attachmentTable : Table where
  countAt := attachmentOffset
  base := attachmentOffset + attachmentSlotsOffset
  stride := attachmentSlotSize
  keyLen := attachmentLabelLen
  valueLen := attachmentPathLen
  max := maxAttachments
  count_before := by decide
  fields_fit := by decide
  max_small := by decide

/-- The table lists exactly these pairs. -/
structure Table.Holds (T : Table) (m : Mem) (pairs : List (CString × CString)) : Prop where
  count : m.load T.countAt 4 = pairs.length
  bounded : pairs.length ≤ T.max
  key : ∀ i (hi : i < pairs.length),
    m.read (T.base + i * T.stride) T.keyLen = fieldBytes T.keyLen pairs[i].1
  value : ∀ i (hi : i < pairs.length),
    m.read (T.base + i * T.stride + T.keyLen) T.valueLen = fieldBytes T.valueLen pairs[i].2

/-- A screenshot slot: the generation counts its publications twice, the data
is the last one's. -/
structure SlotHolds (m : Mem) (slot : Nat) (frames : List Frame) : Prop where
  generation : m.load (screenshotGenerationsOffset + slot * 4) 4 = 2 * frames.length % 2 ^ 32
  timestamp : ∀ frame ∈ frames.getLast?,
    m.load (screenshotTimestampsOffset + slot * 8) 8 = frame.timestampNs.toNat
  tier : ∀ frame ∈ frames.getLast?, m.load (screenshotTiersOffset + slot * 4) 4 = frame.tier.toNat
  pixels : ∀ frame ∈ frames.getLast?, m.read (screenshotDataOffset + slot * screenshotBytesPerSlot)
      screenshotBytesPerSlot = frame.pixels

/-- The registry covers every ring that took a record. -/
structure RegistryHolds (m : Mem) (crumbs : Fin 8 → List BreadcrumbArgs) : Prop where
  ringCount : m.load ringCountOffset 4 ≤ crumbMaxThreads
  registered : ∀ i, crumbs i ≠ [] → i < m.load ringCountOffset 4

/-- The SDK fills no other part of the context than the annotations. -/
structure ContextHolds (m : Mem) (annotations : List (CString × CString)) : Prop where
  metadata : ∀ a, contextOffset + sessionStartOffset ≤ a →
    a < contextOffset + annotationCountOffset → m a = 0
  table : annotationTable.Holds m annotations

structure SettingsHolds (m : Mem) (extensions : List (CString × CString)) : Prop where
  version : extensions ≠ [] → m.load settingsOffset 4 = producerExtensionVersion
  table : extensionTable.Holds m extensions

/-- What a unit holds of the journal. -/
def PublicationUnit.Holds (m : Mem) (j : Journal) : PublicationUnit → Prop
  | registry => RegistryHolds m j.crumbs
  | ring index => RingHolds m index (j.crumbs index)
  | context => ContextHolds m j.annotations
  | settings => SettingsHolds m j.extensions
  | attachments => attachmentTable.Holds m j.attachments
  | screenshot index => SlotHolds m index (j.frames index)

/-- A mapping in which exactly the journal was published and no publication
is under way. -/
structure Represents (m : Mem) (j : Journal) : Prop where
  header : ValidHeader m
  idle : ∀ u : PublicationUnit, m.load u.generation 4 % 2 = 0
  units : ∀ u : PublicationUnit, u.Holds m j

/-! ## A unit depends on its own bytes only -/

variable {m m' : Mem} {j j' : Journal} {a : Nat}

theorem CrumbHolds.congr {base args} (h : CrumbHolds m base args)
    (heq : ∀ a, base ≤ a → a < base + breadcrumbSize → m' a = m a) : CrumbHolds m' base args := by
  have hload : ∀ k width, k + width ≤ breadcrumbSize →
      m'.load (base + k) width = m.load (base + k) width := fun k width hk =>
    Mem.load_congr fun i h1 h2 => heq i (by omega) (by omega)
  have hread : ∀ k n, k + n ≤ breadcrumbSize →
      m'.read (base + k) n = m.read (base + k) n := fun k n hk =>
    Mem.read_congr fun i h1 h2 => heq i (by omega) (by omega)
  constructor
  · rw [hload _ _ (by decide), h.timestamp]
  · rw [hload _ _ (by decide), h.threadId]
  · rw [hload _ _ (by decide), h.category]
  · rw [hload _ _ (by decide), h.severity]
  · rw [hread _ _ (by decide), h.file]
  · rw [hload _ _ (by decide), h.line]
  · rw [hread _ _ (by decide), h.message]

theorem RingHolds.congr {ring log} (h : RingHolds m ring log)
    (heq : ∀ a, ringOffset ring ≤ a → a < ringOffset ring + ringGenerationOffset → m' a = m a) :
    RingHolds m' ring log where
  writeIdx := by
    rw [← h.writeIdx]
    refine Mem.load_congr fun i h1 h2 => heq i (by omega) ?_
    simp at h1 h2 ⊢
    omega
  count := by
    rw [← h.count]
    refine Mem.load_congr fun i h1 h2 => heq i (by omega) ?_
    simp at h1 h2 ⊢
    omega
  crumbs := by
    refine h.crumbs.mono (by decide) fun index hindex args hargs => hargs.congr fun i h1 h2 => ?_
    simp only [crumbOffset, crumbRingCapacity, breadcrumbSize] at hindex h1 h2
    refine heq i (by omega) ?_
    simp only [ringGenerationOffset]
    omega
  accepted := h.accepted

/-- The bytes of a table. -/
def Table.Region (T : Table) (a : Nat) : Prop :=
  (T.countAt ≤ a ∧ a < T.countAt + 4) ∨ (T.base ≤ a ∧ a < T.base + T.max * T.stride)

theorem Table.Holds.congr {T : Table} {pairs}
    (h : T.Holds m pairs) (heq : ∀ a, T.Region a → m' a = m a) : T.Holds m' pairs := by
  have hfit := T.fields_fit
  have hpair : ∀ i, i < pairs.length → ∀ a, T.base + i * T.stride ≤ a →
      a < T.base + i * T.stride + T.stride → m' a = m a := by
    intro i hi a h1 h2
    have hle : (i + 1) * T.stride ≤ T.max * T.stride :=
      Nat.mul_le_mul_right _ (Nat.lt_of_lt_of_le hi h.bounded)
    rw [Nat.add_mul, Nat.one_mul] at hle
    exact heq a (.inr ⟨by omega, by omega⟩)
  constructor
  · rw [← h.count]
    exact Mem.load_congr fun i h1 h2 => heq i (.inl ⟨h1, h2⟩)
  · exact h.bounded
  · intro i hi
    rw [← h.key i hi]
    exact Mem.read_congr fun a h1 h2 => hpair i hi a (by omega) (by omega)
  · intro i hi
    rw [← h.value i hi]
    exact Mem.read_congr fun a h1 h2 => hpair i hi a (by omega) (by omega)

theorem SlotHolds.congr {slot frames} (h : SlotHolds m slot frames) (heq : ∀ a,
      (screenshotGenerationsOffset + slot * 4 ≤ a ∧
        a < screenshotGenerationsOffset + slot * 4 + 4) ∨
      (screenshotTimestampsOffset + slot * 8 ≤ a ∧
        a < screenshotTimestampsOffset + slot * 8 + 8) ∨
      (screenshotTiersOffset + slot * 4 ≤ a ∧
        a < screenshotTiersOffset + slot * 4 + 4) ∨
      (screenshotDataOffset + slot * screenshotBytesPerSlot ≤ a ∧
        a < screenshotDataOffset + slot * screenshotBytesPerSlot +
          screenshotBytesPerSlot) → m' a = m a) : SlotHolds m' slot frames := by
  constructor
  · rw [← h.generation]
    exact Mem.load_congr fun i h1 h2 => heq i (.inl ⟨h1, h2⟩)
  · intro frame hframe
    rw [← h.timestamp frame hframe]
    exact Mem.load_congr fun i h1 h2 => heq i (.inr (.inl ⟨h1, h2⟩))
  · intro frame hframe
    rw [← h.tier frame hframe]
    exact Mem.load_congr fun i h1 h2 => heq i (.inr (.inr (.inl ⟨h1, h2⟩)))
  · intro frame hframe
    rw [← h.pixels frame hframe]
    exact Mem.read_congr fun i h1 h2 => heq i (.inr (.inr (.inr ⟨h1, h2⟩)))

open PublicationUnit

theorem annotationTable_region (h : annotationTable.Region a) : context.Payload a := by
  simp [Table.Region, annotationTable, Payload] at h ⊢
  omega

theorem extensionTable_region (h : extensionTable.Region a) : settings.Payload a := by
  simp [Table.Region, extensionTable, Payload] at h ⊢
  omega

theorem attachmentTable_region (h : attachmentTable.Region a) : attachments.Payload a := by
  simp [Table.Region, attachmentTable, Payload] at h ⊢
  omega

theorem ContextHolds.congr {annotations : List (CString × CString)} (h : ContextHolds m annotations)
    (heq : ∀ a, context.Payload a → m' a = m a) : ContextHolds m' annotations where
  metadata := by
    intro a h1 h2
    have hpay : context.Payload a := by
      simp [Payload] at h1 h2 ⊢
      omega
    rw [heq a hpay]
    exact h.metadata a h1 h2
  table := h.table.congr fun a ha => heq a (annotationTable_region ha)

theorem SettingsHolds.congr {extensions : List (CString × CString)} (h : SettingsHolds m extensions)
    (heq : ∀ a, settings.Payload a → m' a = m a) : SettingsHolds m' extensions where
  version := by
    intro hne
    rw [← h.version hne]
    refine Mem.load_congr fun i h1 h2 => heq i ⟨h1, ?_⟩
    simp only [settingsSize]
    omega
  table := h.table.congr fun a ha => heq a (extensionTable_region ha)

theorem PublicationUnit.Holds.congr {u : PublicationUnit} (h : u.Holds m j)
    (hpayload : ∀ a, u.Payload a → m' a = m a)
    (hgeneration : ∀ a, u.generation ≤ a → a < u.generation + 4 → m' a = m a) : u.Holds m' j := by
  cases u with
  | registry =>
    have hcount : m'.load ringCountOffset 4 = m.load ringCountOffset 4 :=
      Mem.load_congr fun i h1 h2 => hpayload i ⟨h1, h2⟩
    constructor
    · rw [hcount]
      exact h.ringCount
    intro i hi
    rw [hcount]
    exact h.registered i hi
  | ring index => exact RingHolds.congr h fun a h1 h2 => hpayload a ⟨h1, h2⟩
  | context => exact ContextHolds.congr h hpayload
  | settings => exact SettingsHolds.congr h hpayload
  | attachments => exact Table.Holds.congr h fun a ha => hpayload a (attachmentTable_region ha)
  | screenshot index =>
    refine SlotHolds.congr h fun a ha => ?_
    rcases ha with ha | ha
    · exact hgeneration a ha.1 ha.2
    · exact hpayload a ha

/-! ## Publishing some units -/

/-- The step from `m` to `m'` changed these units and the free words only,
and left no publication under way. -/
structure Published (units : PublicationUnit → Prop) (m m' : Mem) : Prop where
  idle : ∀ u, units u → m'.load u.generation 4 % 2 = 0
  frame : ∀ a, ¬ FreeWord a → (∀ u, units u → ¬ u.Payload a ∧
    (a < u.generation ∨ u.generation + 4 ≤ a)) → m' a = m a

namespace Published

variable {units : PublicationUnit → Prop} {v : PublicationUnit}

theorem payload (h : Published units m m') (hv : ¬ units v) (ha : v.Payload a) : m' a = m a := by
  refine h.frame a (fun hfree => publicationLayout.free_payload hfree ha) ?_
  intro u hu
  refine ⟨fun hpay => hv ?_, generation_payload ha⟩
  rwa [payload_unique ha hpay]

theorem generation (h : Published units m m') (hv : ¬ units v)
    (h1 : v.generation ≤ a) (h2 : a < v.generation + 4) : m' a = m a := by
  refine h.frame a (fun hfree => ?_) fun u hu => ⟨fun hpay => ?_, ?_⟩
  · have := publicationLayout.free_gen (u := v) hfree
    simp only [publicationLayout] at this
    omega
  · have := generation_payload (u := v) hpay
    omega
  · have hne : u ≠ v := fun heq => hv (heq ▸ hu)
    have := generation_disjoint hne
    omega

theorem validHeader (h : Published units m m') (hm : ValidHeader m) : ValidHeader m' := by
  have heq : ∀ a, a < 8 ∨ footerOffset ≤ a → m' a = m a := by
    intro a ha
    refine h.frame a (fun hfree => ?_) fun u hu => ?_
    · simp [FreeWord] at hfree ha
      omega
    cases u <;>
      simp [PublicationUnit.Payload, PublicationUnit.generation] at ha ⊢ <;>
      omega
  constructor
  · rw [← hm.magic]
    refine Mem.load_congr fun i h1 h2 => heq i ?_
    simp only [section1Offset] at h2
    omega
  · rw [← hm.version]
    refine Mem.load_congr fun i h1 h2 => heq i ?_
    simp only [section1Offset] at h2
    omega
  · rw [← hm.canary]
    exact Mem.load_congr fun i h1 h2 => heq i (.inr h1)

end Published

/-- A publication keeps the relation if it does so for its own units. -/
theorem Represents.publish {units : PublicationUnit → Prop}
    (h : Represents m j) (hp : Published units m m') (hown : ∀ u, units u → u.Holds m' j')
    (hothers : ∀ u, ¬ units u → u.Holds m j → u.Holds m j') : Represents m' j' := by
  refine ⟨hp.validHeader h.header, fun u => ?_, fun u => ?_⟩ <;>
    by_cases hu : units u
  · exact hp.idle u hu
  · rw [Mem.load_congr fun a h1 h2 => hp.generation hu h1 h2]
    exact h.idle u
  · exact hown u hu
  · exact (hothers u hu (h.units u)).congr (fun a ha => hp.payload hu ha)
      fun a h1 h2 => hp.generation hu h1 h2

end CrashMonitor.Shm
