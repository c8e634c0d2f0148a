import CrashMonitor.Shm.Journal

/-!
# Shared memory — calls that run alone

What each SDK call leaves in the mapping when no other call is under way:
the claim and the release of the unit's generation around the payload
writes. Over this, `run_represents` is the step of the refinement of the
journal, and `runCalls_represents` the run.
-/

namespace CrashMonitor.Shm

open Bytes Interleave RingLog SharedMemory Function List PublicationUnit Mem Nat Prog

variable {m m' : Mem} {j : Journal} {a : Nat}
variable {u : PublicationUnit} {args : BreadcrumbArgs} {index : Fin 8}

/-! ## Texts and seqlocks -/

@[simp] theorem fieldBytes_length (size : Nat) (src : CString) :
    (fieldBytes size src).length = size := by
  have hcut := length_take_le (size - 1) src.bytes
  rw [fieldBytes, length_append, length_replicate]
  omega

/-- `crash_monitor_copy_text` writes the whole field. -/
@[simp] theorem run_copyText (dst size : Nat) (src : CString) (m : Mem) :
    run (crashMonitorCopyText dst size src) m = ((), m.write dst (fieldBytes size src)) := by
  unfold crashMonitorCopyText
  by_cases hsize : size = 0
  · subst hsize
    simp [fieldBytes]
  have htake : src.bytes.take (if src.strlen ≥ size then size - 1
      else src.strlen) = src.bytes.take (size - 1) := by
    unfold CString.strlen
    split
    · rfl
    · rw [take_of_length_le (le_refl _), take_of_length_le (by omega)]
  have hlength : (src.bytes.take (size - 1)).length =
      if src.strlen ≥ size then size - 1 else src.strlen := by
    rw [length_take, CString.strlen]
    split <;> omega
  rw [if_neg hsize, fieldBytes, write_append, hlength]
  simp [htake]

/-- Alone, claiming an idle unit succeeds. -/
theorem run_tryBegin {generation} (h : m.load generation 4 % 2 = 0) :
    run (sutShmSeqlockTryBegin generation) m = (some (m.load generation 4 + 1),
        m.store generation 4 (m.load generation 4 + 1)) := by
  simp [sutShmSeqlockTryBegin, h]

@[simp] theorem run_end (generation odd : Nat) (m : Mem) :
    run (sutShmSeqlockEnd generation odd) m = ((), m.store generation 4 (odd + 1)) := rfl

/-- The memory in which the unit is claimed. -/
def claimed (u : PublicationUnit) (m : Mem) : Mem :=
  m.store u.generation 4 (m.load u.generation 4 + 1)

/-- The memory `m'`, in which the unit claimed in `m` is released. -/
def released (u : PublicationUnit) (m m' : Mem) : Mem :=
  m'.store u.generation 4 (m.load u.generation 4 + 1 + 1)

theorem claimed_payload {v : PublicationUnit} (h : v.Payload a) : claimed u m a = m a :=
  store_outside (generation_payload h)

theorem released_payload {v : PublicationUnit} (h : v.Payload a) : released u m m' a = m' a :=
  store_outside (generation_payload h)

theorem released_generation {u m m'} :
    (released u m m').load u.generation 4 = (m.load u.generation 4 + 2) % 2 ^ 32 :=
  load_store_self _ _ _ _

/-- Claim, write the payload, release. -/
theorem published_single (hidle : m.load u.generation 4 % 2 = 0)
    (hframe : ∀ a, ¬ u.Payload a → m' a = claimed u m a) :
    Published (· = u) m (released u m m') := by
  constructor
  · rintro v rfl
    rw [released_generation]
    omega
  · intro a _ ha
    obtain ⟨hpay, hgen⟩ := ha u rfl
    rw [released, store_outside hgen, hframe a hpay, claimed, store_outside hgen]

/-! ## Tables -/

namespace Table

/-- Count one more pair and write its fields. -/
def push (T : Table) (key value : CString) (m : Mem) : Mem :=
  let count := m.load T.countAt 4
  let pair := T.base + count * T.stride
  ((m.store T.countAt 4 (count + 1)).write pair (fieldBytes T.keyLen key)).write
    (pair + T.keyLen) (fieldBytes T.valueLen value)

variable {T : Table} {pairs : List (CString × CString)} {key value : CString}

theorem push_outside (hcount : a < T.countAt ∨ T.countAt + 4 ≤ a)
    (hpair : a < T.base + m.load T.countAt 4 * T.stride ∨
      T.base + m.load T.countAt 4 * T.stride + T.stride ≤ a) : T.push key value m a = m a := by
  have hfit := T.fields_fit
  unfold push
  rw [write_outside (by rw [fieldBytes_length]; omega),
    write_outside (by rw [fieldBytes_length]; omega), store_outside hcount]

theorem Holds.push (h : T.Holds m pairs) (hroom : pairs.length < T.max) (key value : CString) :
    T.Holds (T.push key value m) (pairs ++ [(key, value)]) := by
  have hsmall := T.max_small
  have hbefore := T.count_before
  have hfit := T.fields_fit
  have hlength : (pairs ++ [(key, value)]).length = pairs.length + 1 := by simp
  -- an older pair lies wholly before the new one
  have hold : ∀ i, i < pairs.length → ∀ a, T.base + i * T.stride ≤ a →
      a < T.base + i * T.stride + T.stride → T.push key value m a = m a := by
    intro i hi a h1 h2
    have hle : (i + 1) * T.stride ≤ pairs.length * T.stride := mul_le_mul_right _ hi
    rw [Nat.add_mul, one_mul] at hle
    refine push_outside (by omega) ?_
    rw [h.count]
    omega
  constructor
  · unfold Table.push
    rw [load_write_disjoint (by omega), load_write_disjoint (by omega),
      load_store_self, h.count, hlength]
    exact mod_eq_of_lt (by omega)
  · omega
  · intro i hi
    rcases Nat.lt_succ_iff_lt_or_eq.mp (hlength ▸ hi) with hlt | rfl
    · rw [getElem_append_left hlt, ← h.key i hlt]
      exact read_congr fun a h1 h2 => hold i hlt a (by omega) (by omega)
    rw [getElem_concat_length rfl]
    unfold Table.push
    rw [h.count, read_write_disjoint (by omega), read_write_of_length (fieldBytes_length _ _)]
  · intro i hi
    rcases Nat.lt_succ_iff_lt_or_eq.mp (hlength ▸ hi) with hlt | rfl
    · rw [getElem_append_left hlt, ← h.value i hlt]
      exact read_congr fun a h1 h2 => hold i hlt a (by omega) (by omega)
    rw [getElem_concat_length rfl]
    unfold Table.push
    rw [h.count, read_write_of_length (fieldBytes_length _ _)]

/-- A push stays within the table. -/
theorem Holds.push_frame (h : T.Holds m pairs) (hroom : pairs.length < T.max)
    (ha : ¬ T.Region a) : T.push key value m a = m a := by
  have hle : (pairs.length + 1) * T.stride ≤ T.max * T.stride := mul_le_mul_right _ hroom
  rw [Nat.add_mul, one_mul] at hle
  unfold Region at ha
  refine push_outside (by omega) ?_
  rw [h.count]
  omega

end Table

/-! ## Calls on tables -/

theorem run_setAnnotation {key value} (hidle : m.load contextGenerationOffset 4 % 2 = 0) :
    run (SdkCall.annotate key value).prog m =
      let c := claimed .context m
      if c.load annotationTable.countAt 4 ≥ 2 ^ 31 ∨
          c.load annotationTable.countAt 4 ≥ maxAnnotations then
        (-1, released .context m c)
      else (0, released .context m (annotationTable.push key value c)) := by
  unfold SdkCall.prog crashMonitorSetAnnotation
  rw [run_bind, run_tryBegin hidle]
  rw [run_bind, run_load, run_ite]
  simp only [bind_eq, exec_bind, run_load, run_storeWord, run_copyText, run_end, pure_eq, exec_ret]
  rfl

theorem run_setExtension {key value} (hidle : m.load settingsGenerationOffset 4 % 2 = 0) :
    run (crashMonitorSetExtension key value) m =
      let c := claimed .settings m
      if c.load extensionTable.countAt 4 ≥ producerExtensionMaxEntries then
        (-1, released .settings m c)
      else (0, released .settings m (extensionTable.push key value
        (c.store settingsOffset 4 producerExtensionVersion))) := by
  rw [crashMonitorSetExtension, run_bind, run_tryBegin hidle]
  rw [run_bind, run_load, run_ite]
  simp only [bind_eq, exec_bind, run_load, run_storeWord, run_copyText, run_end, pure_eq, exec_ret]
  rfl

theorem run_registerAttachment {label path} (hidle : m.load attachmentsGenerationOffset 4 % 2 = 0) :
    run (crashMonitorRegisterAttachment label path) m =
      let c := claimed .attachments m
      if c.load attachmentTable.countAt 4 ≥ maxAttachments then
        (-1, released .attachments m c)
      else (0, released .attachments m (attachmentTable.push label path c)) := by
  rw [crashMonitorRegisterAttachment, run_bind, run_tryBegin hidle]
  rw [run_bind, run_load, run_ite]
  simp only [bind_eq, exec_bind, run_load, run_storeWord, run_copyText, run_end, pure_eq, exec_ret]
  rfl

/-- A call that writes a unit keeps the relation if the unit holds the new
state before the release. -/
theorem Represents.writeUnit {j' : Journal} (h : Represents m j)
    (hframe : ∀ a, ¬ u.Payload a → m' a = claimed u m a)
    (hown : (∀ a, u.Payload a → released u m m' a = m' a) → u.Holds (released u m m') j')
    (hothers : ∀ v, v ≠ u → v.Holds m j → v.Holds m j') : Represents (released u m m') j' := by
  refine h.publish (published_single (h.idle u) hframe) ?_ hothers
  rintro v rfl
  exact hown fun a ha => released_payload ha

/-- A claim that is released without a write publishes what was there. -/
theorem Represents.release (h : Represents m j)
    (hown : (∀ a, u.Payload a → released u m (claimed u m) a = m a) →
      u.Holds (released u m (claimed u m)) j) : Represents (released u m (claimed u m)) j :=
  h.writeUnit (fun _ _ => rfl) (fun heq => hown fun a ha => (heq a ha).trans (claimed_payload ha))
    fun _ _ hv => hv

/-- Claiming a unit leaves its table as it is. -/
theorem Table.Holds.claimed {T : Table} {pairs}
    (h : T.Holds m pairs) (hT : ∀ a, T.Region a → u.Payload a) : T.Holds (claimed u m) pairs :=
  h.congr fun a ha => claimed_payload (hT a ha)

/-- What a call answers and leaves is what the journal says. -/
def Refines (call : SdkCall) (m : Mem) (j : Journal) : Prop :=
  (run call.prog m).1 = (j.step call).1 ∧ Represents (run call.prog m).2 (j.step call).2

open Journal

theorem refines_annotate (h : Represents m j) {key value : CString} :
    Refines (.annotate key value) m j := by
  have hunit : ContextHolds m j.annotations := h.units .context
  have htable : annotationTable.Holds (claimed .context m) j.annotations :=
    hunit.table.claimed fun a => annotationTable_region
  rw [Refines, run_setAnnotation (h.idle .context), step]
  dsimp only
  rw [htable.count]
  by_cases hroom : j.annotations.length < maxAnnotations
  · rw [if_pos hroom, if_neg (by
      simp only [maxAnnotations] at hroom ⊢
      omega)]
    refine ⟨rfl, h.writeUnit (fun a ha => htable.push_frame hroom fun hreg =>
      ha (annotationTable_region hreg)) (fun heq => ?_) ?_⟩
    · refine ContextHolds.congr (m := annotationTable.push key value (claimed .context m)) ?_ heq
      refine ⟨fun a h1 h2 => ?_, htable.push hroom key value⟩
      have hout : ¬ annotationTable.Region a ∧ context.Payload a := by
        simp [Table.Region, annotationTable, Payload] at h1 h2 ⊢
        omega
      rw [htable.push_frame hroom hout.1, claimed_payload hout.2]
      exact hunit.metadata a h1 h2
    · intro v hv hheld
      cases v <;> first | exact hheld | exact absurd rfl hv
  · rw [if_neg hroom, if_pos (.inr (Nat.le_of_not_lt hroom))]
    exact ⟨rfl, h.release fun heq => hunit.congr heq⟩

theorem refines_setExtension (h : Represents m j) {key value : CString} :
    Refines (.setExtension key value) m j := by
  have hunit : SettingsHolds m j.extensions := h.units .settings
  have htable : extensionTable.Holds (claimed .settings m) j.extensions :=
    hunit.table.claimed fun a => extensionTable_region
  rw [Refines, SdkCall.prog, run_setExtension (h.idle .settings), step]
  dsimp only
  rw [htable.count]
  by_cases hroom : j.extensions.length < producerExtensionMaxEntries
  · rw [if_pos hroom, if_neg (Nat.not_le_of_lt hroom)]
    -- the version word lies before the table
    have hversion : ∀ a, extensionTable.Region a → settingsOffset + 4 ≤ a := by
      intro a ha
      simp [Table.Region, extensionTable] at ha ⊢
      omega
    have htable : extensionTable.Holds ((claimed .settings m).store
        settingsOffset 4 producerExtensionVersion) j.extensions :=
      htable.congr fun a ha => store_outside (.inr (hversion a ha))
    refine ⟨rfl, h.writeUnit (fun a ha => ?_) (fun heq => ?_) ?_⟩
    · rw [htable.push_frame hroom fun hreg => ha (extensionTable_region hreg)]
      refine store_outside ?_
      simp only [Payload, settingsSize] at ha
      omega
    · refine SettingsHolds.congr (m := extensionTable.push key value
        ((claimed .settings m).store settingsOffset 4 producerExtensionVersion)) ?_ heq
      refine ⟨fun _ => ?_, htable.push hroom key value⟩
      have hkept : (extensionTable.push key value ((claimed .settings m).store
          settingsOffset 4 producerExtensionVersion)).load settingsOffset 4 =
          ((claimed .settings m).store settingsOffset 4
            producerExtensionVersion).load settingsOffset 4 :=
        load_congr fun a _ h2 => htable.push_frame hroom fun hreg =>
          absurd (hversion a hreg) (by omega)
      rw [hkept, load_store_self]
      decide
    · intro v hv hheld
      cases v <;> first | exact hheld | exact absurd rfl hv
  · rw [if_neg hroom, if_pos (Nat.le_of_not_lt hroom)]
    exact ⟨rfl, h.release fun heq => hunit.congr heq⟩

theorem refines_registerAttachment (h : Represents m j)
    {label path : CString} : Refines (.registerAttachment label path) m j := by
  have hunit : attachmentTable.Holds m j.attachments := h.units .attachments
  have htable : attachmentTable.Holds (claimed .attachments m) j.attachments :=
    hunit.claimed fun a => attachmentTable_region
  rw [Refines, SdkCall.prog, run_registerAttachment (h.idle .attachments), step]
  dsimp only
  rw [htable.count]
  by_cases hroom : j.attachments.length < maxAttachments
  · rw [if_pos hroom, if_neg (Nat.not_le_of_lt hroom)]
    refine ⟨rfl, h.writeUnit (fun a ha => htable.push_frame hroom fun hreg =>
      ha (attachmentTable_region hreg)) (fun heq => ?_) ?_⟩
    · exact (htable.push hroom label path).congr fun a ha => heq a (attachmentTable_region ha)
    · intro v hv hheld
      cases v <;> first | exact hheld | exact absurd rfl hv
  · rw [if_neg hroom, if_pos (Nat.le_of_not_lt hroom)]
    exact ⟨rfl, h.release fun heq =>
      Table.Holds.congr hunit fun a ha => heq a (attachmentTable_region ha)⟩

/-! ## Screenshots -/

/-- The payload writes of `crash_monitor_publish_screenshot`. -/
def writeFrame (slot : Nat) (frame : Frame) (m : Mem) : Mem :=
  ((m.write (screenshotDataOffset + slot * screenshotBytesPerSlot)
    frame.pixels).store (screenshotTimestampsOffset + slot * 8) 8
      frame.timestampNs.toNat).store (screenshotTiersOffset + slot * 4) 4 frame.tier.toNat

theorem run_publishScreenshot {slot timestampNs tier pixels}
    (hslot : slot.toNat < screenshotSlots) (hpixels : pixels.length = screenshotBytesPerSlot)
    (hidle : m.load (screenshotGenerationsOffset + slot.toNat * 4) 4 % 2 = 0) :
    run (crashMonitorPublishScreenshot slot timestampNs tier (some pixels)) m =
      (0, released (.screenshot ⟨slot.toNat, hslot⟩) m
        (writeFrame slot.toNat ⟨timestampNs, tier, pixels⟩
          (claimed (.screenshot ⟨slot.toNat, hslot⟩) m))) := by
  rw [crashMonitorPublishScreenshot, if_neg (by omega), run_bind, run_tryBegin hidle]
  simp only [bind_eq, exec_bind, run_storeWord, run_storeBytes, run_end, pure_eq, exec_ret]
  rfl

theorem writeFrame_frame (slot : Fin 96) {frame}
    (hpixels : frame.pixels.length = screenshotBytesPerSlot)
    (ha : ¬ (screenshot slot).Payload a) : writeFrame slot frame m a = m a := by
  simp only [Payload, not_or, not_and, not_lt] at ha
  unfold writeFrame
  rw [store_outside (by omega), store_outside (by omega), write_outside (by omega)]

/-- The payload of a slot that was just written. -/
theorem slotHolds_writeFrame {slot frames frame}
    (hpixels : frame.pixels.length = screenshotBytesPerSlot)
    (hpay : ∀ a, (screenshot slot).Payload a → m' a = writeFrame slot frame m a)
    (hgen : m'.load (screenshotGenerationsOffset + slot * 4) 4 =
      2 * (frames ++ [frame]).length % 2 ^ 32) : SlotHolds m' slot (frames ++ [frame]) := by
  have hlast : ∀ frame' ∈ (frames ++ [frame]).getLast?, frame' = frame := by
    intro frame' hframe
    rw [List.getLast?_concat, Option.mem_some_iff] at hframe
    exact hframe.symm
  refine ⟨hgen, ?_, ?_, ?_⟩
  · intro frame' hframe
    rw [hlast frame' hframe, load_congr fun a h1 h2 => hpay a (.inl ⟨h1, h2⟩), writeFrame,
      load_store_disjoint (by
        simp
        omega), load_store_self]
    exact mod_eq_of_lt frame.timestampNs.toNat_lt
  · intro frame' hframe
    rw [hlast frame' hframe,
      load_congr fun a h1 h2 => hpay a (.inr (.inl ⟨h1, h2⟩)), writeFrame, load_store_self]
    exact mod_eq_of_lt frame.tier.toNat_lt
  · intro frame' hframe
    rw [hlast frame' hframe, read_congr fun a h1 h2 => hpay a (.inr (.inr ⟨h1, h2⟩)), writeFrame]
    rw [store, read_write_disjoint (by
        simp [toLE_length]
        omega), store, read_write_disjoint (by
        simp [toLE_length]
        omega)]
    exact read_write_of_length hpixels

theorem refines_publishScreenshot (h : Represents m j) (slot timestampNs tier) {rgba} :
    Refines (.publishScreenshot slot timestampNs tier rgba) m j := by
  cases rgba with
  | none => exact ⟨rfl, h⟩
  | some pixels =>
    by_cases hok : slot.toNat < screenshotSlots ∧ pixels.length = screenshotBytesPerSlot
    · let index : Fin 96 := ⟨slot.toNat, hok.1⟩
      have hunit : SlotHolds m index (j.frames index) := h.units (.screenshot index)
      rw [Refines, SdkCall.prog, step, dif_pos hok,
        run_publishScreenshot hok.1 hok.2 (h.idle (.screenshot index))]
      refine ⟨rfl, h.writeUnit (u := .screenshot index)
        (fun a ha => writeFrame_frame index hok.2 ha) (fun heq => ?_) fun v hv hheld => ?_⟩
      · show SlotHolds _ index (update j.frames index _ index)
        rw [update_self]
        refine slotHolds_writeFrame hok.2 heq ?_
        refine (released_generation).trans ?_
        rw [generation, hunit.generation, mod_add_mod, length_append, length_singleton, Nat.mul_add]
      · cases v with
        | screenshot other =>
          have hne : other ≠ index := fun heq => hv (heq ▸ rfl)
          show SlotHolds m other (update j.frames index _ other)
          rw [update_of_ne hne]
          exact hheld
        | _ => exact hheld
    · rw [Refines, SdkCall.prog, step, dif_neg hok,
        crashMonitorPublishScreenshot, if_pos (by omega)]
      exact ⟨rfl, h⟩

/-! ## Free words -/

theorem represents_of_freeWords (h : Represents m j)
    (heq : ∀ a, ¬ FreeWord a → m' a = m a) : Represents m' j := by
  have hnone : Published (fun _ => False) m m' := ⟨fun _ hu => hu.elim, fun a ha _ => heq a ha⟩
  exact h.publish hnone (fun _ hu => hu.elim) fun _ _ hv => hv

theorem refines_heartbeat (h : Represents m j) : Refines .heartbeat m j := by
  refine ⟨rfl, represents_of_freeWords h fun a ha => ?_⟩
  refine store_outside ?_
  simp only [FreeWord] at ha
  omega

theorem refines_markReady (h : Represents m j) : Refines .markReady m j := by
  refine ⟨rfl, represents_of_freeWords h fun a ha => ?_⟩
  simp only [FreeWord, not_or, not_and, not_lt] at ha
  refine (store_outside (by omega)).trans ?_
  exact store_outside (by omega)

/-! ## Breadcrumbs -/

section

variable (ring : Nat) (args : BreadcrumbArgs) (m : Mem)

/-- The stores to the breadcrumb at `base`. -/
def writeCrumb (base : Nat) (args : BreadcrumbArgs) (m : Mem) : Mem :=
  let m := m.write base (List.replicate breadcrumbSize 0)
  let m := m.store (base + crumbTimestampOffset) 8 args.timestampNs.toNat
  let m := m.store (base + crumbThreadIdOffset) 4 args.threadId.toNat
  let m := m.store (base + crumbCategoryOffset) 2 args.category.toNat
  let m := m.store (base + crumbSeverityOffset) 2 args.severity.toNat
  let m := m.store (base + crumbLineOffset) 2 args.line.toNat
  let m := m.write (base + crumbFileOffset) (fieldBytes breadcrumbFileLen args.file)
  m.write (base + crumbMessageOffset) (fieldBytes breadcrumbMessageLen args.message)

/-- The stores to the ring's own fields. -/
def advanceRing (index : Nat) (m : Mem) : Mem :=
  let m := m.store (ringOffset ring + ringTidOffset) 4 args.threadId.toNat
  let m := m.store (ringOffset ring + ringWriteIdxOffset) 4 (index + 1)
  m.store (ringOffset ring + ringCountFieldOffset) 4
    (m.load (ringOffset ring + ringCountFieldOffset) 4 + 1)

/-- The memory after `writeBreadcrumb`. -/
def pushCrumb : Mem :=
  let index := m.load (ringOffset ring + ringWriteIdxOffset) 4 % crumbRingCapacity
  advanceRing ring args index (writeCrumb (crumbOffset ring index) args m)

theorem run_writeBreadcrumb : run (writeBreadcrumb ring args) m = ((), pushCrumb ring args m) := by
  unfold writeBreadcrumb
  simp only [bind_eq, exec_bind, run_load, run_storeWord, run_storeBytes, run_copyText]
  rfl

end

theorem writeCrumb_outside {base} (h : a < base ∨ base + breadcrumbSize ≤ a) :
    writeCrumb base args m a = m a := by
  simp only [breadcrumbSize] at h
  unfold writeCrumb
  repeat
    first
    | rw [write_outside (by
        simp [fieldBytes_length]
        omega)]
    | rw [store_outside (by
        simp
        omega)]

theorem advanceRing_outside {ring index}
    (h : a < ringOffset ring + ringWriteIdxOffset ∨ ringOffset ring + ringGenerationOffset ≤ a) :
    advanceRing ring args index m a = m a := by
  simp at h
  unfold advanceRing
  repeat
    rw [store_outside (by
      simp
      omega)]

theorem crumbHolds_writeCrumb {base args m} : CrumbHolds (writeCrumb base args m) base args := by
  have hfile := fieldBytes_length breadcrumbFileLen args.file
  have hmessage := fieldBytes_length breadcrumbMessageLen args.message
  simp only [breadcrumbFileLen, breadcrumbMessageLen] at hfile hmessage
  unfold writeCrumb
  constructor
  all_goals
    simp only [crumbTimestampOffset, crumbThreadIdOffset, crumbCategoryOffset,
      crumbSeverityOffset, crumbLineOffset, crumbFileOffset,
      crumbMessageOffset, breadcrumbFileLen, breadcrumbMessageLen]
  · simp (disch := omega) only [load_write_disjoint, load_store_disjoint, load_store_self]
    exact mod_eq_of_lt args.timestampNs.toNat_lt
  · simp (disch := omega) only [load_write_disjoint, load_store_disjoint, load_store_self]
    exact mod_eq_of_lt args.threadId.toNat_lt
  · simp (disch := omega) only [load_write_disjoint, load_store_disjoint, load_store_self]
    exact mod_eq_of_lt args.category.toNat_lt
  · simp (disch := omega) only [load_write_disjoint, load_store_disjoint, load_store_self]
    exact mod_eq_of_lt args.severity.toNat_lt
  · rw [read_write_disjoint (by omega)]
    exact read_write_of_length hfile
  · simp (disch := omega) only [load_write_disjoint, load_store_self]
    exact mod_eq_of_lt args.line.toNat_lt
  · exact read_write_of_length hmessage

variable (hargs : args.category.toNat ≤ crumbCategoryMax ∧ args.severity.toNat ≤ crumbSeverityMax)

include hargs in
/-- The ring takes one more record. -/
theorem ringHolds_pushCrumb {ring log} (h : RingHolds m ring log) :
    RingHolds (pushCrumb ring args m) ring (log ++ [args]) := by
  have hindex : m.load (ringOffset ring + ringWriteIdxOffset) 4 %
      crumbRingCapacity = log.length % crumbRingCapacity := by
    rw [h.writeIdx, writeIndex_mod]
  have hlt : log.length % crumbRingCapacity < 512 := mod_lt _ (by decide)
  have hpush : pushCrumb ring args m = advanceRing ring args (log.length % crumbRingCapacity)
        (writeCrumb (crumbOffset ring (log.length % crumbRingCapacity)) args m) := by
    rw [pushCrumb, hindex]
  have hlength : (log ++ [args]).length = log.length + 1 := by simp
  -- the record's cell lies before the ring's own fields
  have hcrumb : ∀ a, crumbOffset ring 512 ≤ a →
      writeCrumb (crumbOffset ring (log.length % crumbRingCapacity)) args m a = m a := by
    intro a ha
    refine writeCrumb_outside (.inr ?_)
    simp only [crumbOffset, breadcrumbSize] at ha ⊢
    omega
  rw [hpush]
  constructor
  · rw [advanceRing, load_store_disjoint (by
      simp only [ringWriteIdxOffset, ringCountFieldOffset]
      omega), load_store_self, hlength, writeIndex_succ]
    exact mod_eq_of_lt (by omega)
  · rw [advanceRing, load_store_self, load_store_disjoint (by
      simp only [ringWriteIdxOffset, ringCountFieldOffset]
      omega), load_store_disjoint (by
      simp only [ringTidOffset, ringCountFieldOffset]
      omega), load_congr fun a h1 _ => hcrumb a (by
        simp only [crumbOffset, ringCountFieldOffset, breadcrumbSize] at h1 ⊢
        omega), h.count, hlength]
    exact mod_add_mod _ _ _
  · have hadvance : ∀ index < crumbRingCapacity, ∀ a, a < crumbOffset ring index + breadcrumbSize →
        advanceRing ring args (log.length % crumbRingCapacity)
          (writeCrumb (crumbOffset ring (log.length % crumbRingCapacity))
            args m) a = writeCrumb (crumbOffset ring (log.length % crumbRingCapacity))
            args m a := by
      intro index hindex a ha
      refine advanceRing_outside (.inl ?_)
      simp [crumbOffset] at hindex ha ⊢
      omega
    refine h.crumbs.push (by decide) (fun index hlt' hne other hother => ?_) ?_
    · refine hother.congr fun a h1 h2 => ?_
      rw [hadvance index hlt' a h2]
      refine writeCrumb_outside ?_
      simp only [crumbOffset, breadcrumbSize] at h1 h2 ⊢
      omega
    · exact (crumbHolds_writeCrumb).congr fun a _ h2 => hadvance _ hlt a h2
  · intro other hother
    rw [mem_append, mem_singleton] at hother
    rcases hother with hother | rfl
    · exact h.accepted other hother
    · exact hargs

theorem pushCrumb_frame {ring} (ha : ¬ (PublicationUnit.ring ring).Payload a) :
    pushCrumb ring args m a = m a := by
  simp only [PublicationUnit.Payload, not_and, not_lt] at ha
  unfold pushCrumb
  rw [advanceRing_outside, writeCrumb_outside]
  · simp [crumbOffset] at ha ⊢
    omega
  · simp at ha ⊢
    omega

/-- Alone, the ring is claimed, written and released; the registry follows
if it was claimed. -/
theorem run_addBreadcrumbTo (hslot : args.threadSlot.toNat = index) (registryOdd ringCount : Nat)
    (hidle : m.load (ring index).generation 4 % 2 = 0) :
    run (addBreadcrumbTo args registryOdd ringCount) m =
      (0, (run (do
        registerRing ringCount index
        endRegistry registryOdd)
        (released (.ring index) m
          (pushCrumb index args (claimed (.ring index) m)))).2) := by
  have hbegin : run (sutShmSeqlockTryBegin
      (ringOffset index + ringGenerationOffset)) m = _ := run_tryBegin hidle
  rw [addBreadcrumbTo, hslot, run_bind, hbegin]
  simp only [bind_eq, exec_bind, run_writeBreadcrumb, run_end, pure_eq, exec_ret]
  rfl

include hargs in
/-- The record goes to a registered ring. -/
theorem run_addBreadcrumb_registered (hslot : args.threadSlot.toNat = index)
    (hcount : index < m.load ringCountOffset 4) (hidle : m.load (ring index).generation 4 % 2 = 0) :
    run (crashMonitorAddBreadcrumb args) m = (0, released (.ring index) m
        (pushCrumb index args (claimed (.ring index) m))) := by
  rw [crashMonitorAddBreadcrumb, if_neg (by
    simp only [crumbMaxThreads]
    omega)]
  rw [run_bind, run_load, hslot, if_neg (Nat.not_le_of_lt hcount),
    run_addBreadcrumbTo hslot 0 _ hidle, registerRing, if_neg (Nat.not_le_of_lt hcount)]
  rfl

/-- The memory after a record and the registration of its ring. -/
def registeredCrumb (index : Fin 8) (args : BreadcrumbArgs) (m : Mem) : Mem :=
  let c := claimed .registry m
  released .registry m ((released (.ring index) c
    (pushCrumb index args (claimed (.ring index) c))).store ringCountOffset 4 (index + 1))

include hargs in
/-- The record goes to a new ring, which is registered with it. -/
theorem run_addBreadcrumb_new (hslot : args.threadSlot.toNat = index)
    (hcount : m.load ringCountOffset 4 ≤ index)
    (hregistry : m.load registryGenerationOffset 4 % 2 = 0)
    (hidle : m.load (ring index).generation 4 % 2 = 0) :
    run (crashMonitorAddBreadcrumb args) m = (0, registeredCrumb index args m) := by
  have hclaimed : (claimed .registry m).load ringCountOffset 4 = m.load ringCountOffset 4 :=
    load_congr fun a h1 h2 => claimed_payload (v := .registry) ⟨h1, h2⟩
  have hidle' : (claimed .registry m).load (ring index).generation 4 % 2 = 0 := by
    rw [claimed, load_store_disjoint (generation_disjoint (v := .registry) (by simp)), hidle]
  rw [crashMonitorAddBreadcrumb, if_neg (by
    simp only [crumbMaxThreads]
    omega)]
  rw [run_bind, run_load, hslot, if_pos hcount, run_bind, run_tryBegin hregistry]
  rw [run_bind, run_load]
  refine (run_addBreadcrumbTo (m := claimed .registry m) hslot _ _ hidle').trans ?_
  have hle : (m.store registryGenerationOffset 4
      (m.load registryGenerationOffset 4 + 1)).load ringCountOffset 4 ≤
      index := hclaimed.trans_le hcount
  rw [run_bind, registerRing, if_pos hle, endRegistry,
    if_pos (succ_ne_zero _)]
  rfl

/-- The journal after one more record in a slot. -/
def Journal.addCrumb (j : Journal) (index : Fin 8) (args : BreadcrumbArgs) : Journal :=
  { j with crumbs := update j.crumbs index (j.crumbs index ++ [args]) }

/-- Units other than the ring and the registry do not see the record. -/
theorem holds_addCrumb (hu : u ≠ .ring index) (hregistry : u ≠ .registry) (h : u.Holds m j) :
    u.Holds m (j.addCrumb index args) := by
  cases u with
  | registry => exact absurd rfl hregistry
  | ring other =>
    have hne : other ≠ index := fun heq => hu (heq ▸ rfl)
    show RingHolds m other (update j.crumbs index _ other)
    rw [update_of_ne hne]
    exact h
  | _ => exact h

/-- The registry covers the record once its count is beyond the slot and no
smaller than before. -/
theorem registryHolds_addCrumb (h : RegistryHolds m j.crumbs)
    (hbound : m'.load ringCountOffset 4 ≤ crumbMaxThreads)
    (hcovers : index < m'.load ringCountOffset 4)
    (hgrows : m.load ringCountOffset 4 ≤ m'.load ringCountOffset 4) :
    RegistryHolds m' (j.addCrumb index args).crumbs := by
  refine ⟨hbound, fun other hother => ?_⟩
  by_cases heq : other = index
  · rw [heq]
    exact hcovers
  · simp only [addCrumb, update_of_ne heq] at hother
    exact lt_of_lt_of_le (h.registered other hother) hgrows

include hargs in
/-- The ring's part of the relation, once its record is written. -/
theorem ringHolds_addCrumb (h : RingHolds m index (j.crumbs index))
    (heq : ∀ a, (ring index).Payload a → m' a = pushCrumb index args m a) :
    (ring index).Holds m' (j.addCrumb index args) := by
  show RingHolds m' index (update j.crumbs index _ index)
  rw [update_self]
  exact (ringHolds_pushCrumb hargs h).congr fun a h1 h2 => heq a ⟨h1, h2⟩

include hargs in
theorem represents_registered (h : Represents m j) (hcount : index < m.load ringCountOffset 4) :
    Represents (released (.ring index) m (pushCrumb index args (claimed (.ring index) m)))
      (j.addCrumb index args) := by
  have hring : RingHolds m index (j.crumbs index) := h.units (.ring index)
  have hregistry : RegistryHolds m j.crumbs := h.units .registry
  refine h.writeUnit (fun a ha => pushCrumb_frame ha) (fun heq => ?_) fun v hv hheld => ?_
  · refine ringHolds_addCrumb hargs (hring.congr fun a h1 h2 => ?_) heq
    exact claimed_payload (v := .ring index) ⟨h1, h2⟩
  by_cases hreg : v = .registry
  · subst hreg
    exact registryHolds_addCrumb hregistry hregistry.ringCount hcount (le_refl _)
  · exact holds_addCrumb hv hreg hheld

theorem registeredCrumb_payload (ha : (ring index).Payload a) :
    registeredCrumb index args m a =
      pushCrumb index args (claimed (.ring index) (claimed .registry m)) a := by
  have hout : a < ringCountOffset ∨ ringCountOffset + 4 ≤ a := by
    simp only [Payload, ringOffset, ringsOffset,
      crumbRingSize, ringGenerationOffset, ringCountOffset] at ha ⊢
    omega
  unfold registeredCrumb
  rw [released_payload ha, store_outside hout, released_payload ha]

theorem registeredCrumb_ringCount (index : Fin 8) (args : BreadcrumbArgs) (m : Mem) :
    (registeredCrumb index args m).load ringCountOffset 4 = index + 1 := by
  unfold registeredCrumb
  rw [load_congr fun a h1 h2 => released_payload (u := .registry) (v := .registry) ⟨h1, h2⟩,
    load_store_self]
  exact mod_eq_of_lt (by omega)

theorem registeredCrumb_published (h : Represents m j) :
    Published (fun u => u = .registry ∨ u = .ring index) m (registeredCrumb index args m) := by
  have hne : ring index ≠ .registry := by simp
  constructor
  · rintro u (rfl | rfl)
    · have heven := h.idle .registry
      unfold registeredCrumb
      rw [released_generation]
      omega
    · have heven := h.idle (.ring index)
      have hcount : ∀ c : Mem, (c.store ringCountOffset 4 (index + 1)).load
          (ring index).generation 4 =
          c.load (ring index).generation 4 := fun c => load_store_disjoint (by
          simp only [generation, ringOffset, ringsOffset,
            crumbRingSize, ringGenerationOffset, ringCountOffset]
          omega)
      have hclaimed : (claimed .registry m).load
          (ring index).generation 4 = m.load (ring index).generation 4 :=
        load_store_disjoint (generation_disjoint hne)
      unfold registeredCrumb
      rw [released, load_store_disjoint (generation_disjoint hne), hcount,
        released_generation, hclaimed]
      omega
  · intro a _ hall
    obtain ⟨hcount, hregistry⟩ := hall .registry (.inl rfl)
    obtain ⟨hpay, hring⟩ := hall (.ring index) (.inr rfl)
    have hout : a < ringCountOffset ∨ ringCountOffset + 4 ≤ a := by
      simp only [Payload] at hcount
      omega
    unfold registeredCrumb
    rw [released, store_outside hregistry, store_outside hout, released,
      store_outside hring, pushCrumb_frame hpay, claimed,
      store_outside hring, claimed, store_outside hregistry]

include hargs in
theorem represents_new (h : Represents m j) (hcount : m.load ringCountOffset 4 ≤ index) :
    Represents (registeredCrumb index args m) (j.addCrumb index args) := by
  have hring : RingHolds m index (j.crumbs index) := h.units (.ring index)
  have hregistry : RegistryHolds m j.crumbs := h.units .registry
  have hlt := index.isLt
  have hnew := registeredCrumb_ringCount index args m
  refine h.publish (registeredCrumb_published h) ?_ fun u hu hheld => ?_
  · rintro u (rfl | rfl)
    · refine registryHolds_addCrumb hregistry ?_ ?_ ?_ <;> rw [hnew]
      · exact hlt
      · exact lt_succ_self _
      · omega
    · refine ringHolds_addCrumb hargs (hring.congr fun a h1 h2 => ?_)
        fun a ha => registeredCrumb_payload ha
      have hpay : (ring index).Payload a := ⟨h1, h2⟩
      exact (claimed_payload hpay).trans (claimed_payload hpay)
  · exact holds_addCrumb (fun heq => hu (.inr heq)) (fun heq => hu (.inl heq)) hheld

theorem refines_addBreadcrumb (h : Represents m j) {args} : Refines (.addBreadcrumb args) m j := by
  by_cases hok : args.threadSlot.toNat < crumbMaxThreads ∧
      args.category.toNat ≤ crumbCategoryMax ∧ args.severity.toNat ≤ crumbSeverityMax
  · let index : Fin 8 := ⟨args.threadSlot.toNat, hok.1⟩
    have hslot : args.threadSlot.toNat = index := rfl
    rw [Refines, SdkCall.prog, step, dif_pos hok]
    rcases Nat.lt_or_ge index (m.load ringCountOffset 4) with hlt | hge
    · rw [run_addBreadcrumb_registered hok.2 hslot hlt (h.idle (.ring index))]
      exact ⟨rfl, represents_registered hok.2 h hlt⟩
    · rw [run_addBreadcrumb_new hok.2 hslot hge (h.idle .registry) (h.idle (.ring index))]
      exact ⟨rfl, represents_new hok.2 h hge⟩
  · rw [Refines, SdkCall.prog, step, dif_neg hok, crashMonitorAddBreadcrumb, if_pos (by omega)]
    exact ⟨rfl, h⟩

/-! ## Whole runs -/

/-- **One call.** Its status and the mapping it leaves are the journal's. -/
theorem run_represents (h : Represents m j) (call : SdkCall) :
    (run call.prog m).1 = (j.step call).1 ∧ Represents (run call.prog m).2 (j.step call).2 := by
  cases call with
  | addBreadcrumb args => exact refines_addBreadcrumb h
  | annotate key value => exact refines_annotate h
  | setExtension key value => exact refines_setExtension h
  | registerAttachment label path =>
    exact refines_registerAttachment h
  | publishScreenshot slot timestampNs tier rgba =>
    exact refines_publishScreenshot h ..
  | heartbeat => exact refines_heartbeat h
  | markReady => exact refines_markReady h

/-- **Every run.** The statuses are the journal's, and the mapping holds what
the journal lists. -/
theorem runCalls_represents (h : Represents m j) (calls : List SdkCall) :
    (runCalls calls m).1 = (j.runCalls calls).1 ∧
      Represents (runCalls calls m).2 (j.runCalls calls).2 := by
  induction calls generalizing m j with
  | nil => exact ⟨rfl, h⟩
  | cons call calls ih =>
    obtain ⟨hstatus, hnext⟩ := run_represents h call
    obtain ⟨hrest, hend⟩ := ih hnext
    rw [runCalls, Journal.runCalls]
    exact ⟨by rw [hstatus, hrest], hend⟩

/-- A word of the payload of a fresh mapping. -/
theorem FreshMapping.load_eq_zero (h : FreshMapping m) {width}
    (h1 : section1Size ≤ a) (h2 : a + width ≤ footerOffset)
    (h3 : a + width ≤ settingsOffset ∨ settingsOffset + 4 ≤ a) : m.load a width = 0 :=
  Mem.load_eq_zero fun i hi1 hi2 => h.payload i (by omega) (by omega) (by omega)

theorem Table.holds_nil {T : Table} (h : m.load T.countAt 4 = 0) : T.Holds m [] where
  count := h
  bounded := zero_le _
  key := fun i hi => absurd hi (not_lt_zero i)
  value := fun i hi => absurd hi (not_lt_zero i)

/-- A fresh mapping holds the empty journal. -/
theorem FreshMapping.represents (h : FreshMapping m) : Represents m empty := by
  refine ⟨h.toValidHeader, fun u => by rw [h.generation_eq_zero u], fun u => ?_⟩
  cases u with
  | registry =>
    constructor
    · rw [h.load_eq_zero (by decide) (by decide) (by decide)]
      exact zero_le _
    · intro i hi
      exact absurd rfl hi
  | ring index =>
    constructor
    · refine (h.load_eq_zero ?_ ?_ ?_).trans rfl <;>
        simp only [ringOffset, ringsOffset, crumbRingSize,
          ringWriteIdxOffset, section1Size, footerOffset, settingsOffset] <;>
        omega
    · refine (h.load_eq_zero ?_ ?_ ?_).trans rfl <;>
        simp <;>
        omega
    · exact Kept.nil _
    · intro args hargs
      exact absurd hargs not_mem_nil
  | context =>
    constructor
    · intro a h1 h2
      refine h.payload a ?_ ?_ ?_ <;>
        simp at h1 h2 ⊢ <;>
        omega
    · exact Table.holds_nil (h.load_eq_zero (by decide) (by decide) (by decide))
  | settings =>
    refine ⟨fun hne => absurd rfl hne, Table.holds_nil ?_⟩
    exact h.load_eq_zero (by decide) (by decide) (by decide)
  | attachments =>
    exact Table.holds_nil (h.load_eq_zero (by decide) (by decide) (by decide))
  | screenshot index =>
    refine ⟨h.generation_eq_zero (.screenshot index), ?_, ?_, ?_⟩ <;>
      · intro frame hframe
        exact absurd hframe (by simp [empty])

end CrashMonitor.Shm
