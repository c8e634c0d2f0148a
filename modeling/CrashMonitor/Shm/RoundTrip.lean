import CrashMonitor.Shm.Reader
import CrashMonitor.Shm.Sequential
import CrashMonitor.Shm.Suspended
import Mathlib.Data.List.Perm.Basic

/-!
# Shared memory — from the journal to the reader

A snapshot of a mapping in which no publication is under way shows every
allowed unit as it is (`Mirrors`). On a mapping that represents a journal
each reader function is then a function of the journal: the breadcrumbs are
the newest records of every slot, the tables are their lists of pairs, each
text as the reader decodes the bytes the SDK kept of it.
-/

namespace CrashMonitor.Shm

open Bytes Fallible RingLog StableSort List PublicationUnit

variable {m : Mem} {j : Journal} {a : Nat} {policy : ShmSnapshotPolicy}
variable {snapshot : OwnedShmSnapshot} {L : LiveMapping}
variable {u : PublicationUnit} {size : Nat} {args : BreadcrumbArgs}

/-! ## Idle mappings -/

theorem PublicationUnit.Payload.visible (h : u.Payload a) :
    policy.Visible a ↔ policy.allows u = true := by
  cases u with
  | registry =>
    refine visible_breadcrumbs (.inr ?_)
    simp [Payload] at h ⊢
    omega
  | ring i =>
    refine visible_breadcrumbs (.inr ?_)
    simp [Payload] at h ⊢
    omega
  | context | settings =>
    refine visible_context (.inr ?_)
    simp [Payload] at h ⊢
    omega
  | attachments => exact visible_attachments (.inr h)
  | screenshot i =>
    refine visible_screenshots ?_
    simp [Payload] at h ⊢
    omega

/-- The snapshot has the allowed units of an idle memory. -/
structure OwnedShmSnapshot.Mirrors (snapshot : OwnedShmSnapshot)
    (policy : ShmSnapshotPolicy) (m : Mem) : Prop where
  len : snapshot.len = shmTotalSize
  payloadLen : snapshot.payloadLen = footerOffset
  bytes : ∀ u : PublicationUnit, policy.allows u = true → ∀ a, u.Payload a → snapshot.bytes a = m a
  issues : ∀ u, ¬ Lists snapshot.consistencyIssues u

section

variable (h : snapshot.Shows (policy.mask m))
  (hidle : ∀ u : PublicationUnit, m.load u.generation 4 % 2 = 0)
include h hidle

/-- On an idle memory nothing is cleared. -/
theorem OwnedShmSnapshot.Shows.bytes_of_idle :
    (∀ u, ¬ Unfinished (policy.mask m) u) ∧
      ∀ a < shmTotalSize, snapshot.bytes a = policy.mask m a := by
  have hfinished : ∀ u, ¬ Unfinished (policy.mask m) u := by
    intro u
    by_cases hu : policy.allows u = true
    · have hsame : (policy.mask m).load u.generation 4 =
          m.load u.generation 4 := Mem.load_congr fun a h1 h2 =>
        mask_of_visible ((visible_generation u h1 h2).mpr hu)
      rw [Unfinished, hsame, hidle u]
      decide
    · exact not_unfinished_mask (Bool.eq_false_iff.mpr hu)
  refine ⟨hfinished, fun a ha => (h.bytes a ha).2 ?_⟩
  intro hcleared
  obtain ⟨v, hv, -⟩ := hcleared
  exact hfinished v hv

theorem OwnedShmSnapshot.Shows.mirrors : snapshot.Mirrors policy m := by
  obtain ⟨hfinished, hbytes⟩ := h.bytes_of_idle hidle
  refine ⟨h.len, h.payloadLen, fun u hu a ha => ?_, fun u hlist => ?_⟩
  · rw [hbytes a ha.lt_total]
    exact mask_of_visible (ha.visible.mpr hu)
  · exact hfinished u ((h.issues u).mp hlist).1

end

namespace OwnedShmSnapshot.Mirrors

variable {offset len width : Nat}
variable {u : PublicationUnit}

section

variable (h : snapshot.Mirrors policy m) (hu : policy.allows u = true)
include h hu

theorem range (hlen : 0 < len) (hpay : ∀ a, offset ≤ a → a < offset + len → u.Payload a) :
    snapshot.range offset len = some (m.read offset len) := by
  have hend := (hpay (offset + len - 1) (by omega) (by omega)).region.window
  rw [OwnedShmSnapshot.range, if_neg]
  · rw [Mem.read_congr fun a h1 h2 => h.bytes u hu a (hpay a h1 h2)]
  rw [h.len, h.payloadLen]
  simp at hend ⊢
  omega

theorem readUnsigned
    (hlen : 0 < width) (hpay : ∀ a, offset ≤ a → a < offset + width → u.Payload a) :
    snapshot.readUnsigned width offset = some (m.load offset width) := by
  rw [OwnedShmSnapshot.readUnsigned, h.range hu hlen hpay]
  rfl

theorem readString (hlen : 0 < len) (hpay : ∀ a, offset ≤ a → a < offset + len → u.Payload a) :
    snapshot.readString offset len = decodeBoundedCString (m.read offset len) := by
  rw [OwnedShmSnapshot.readString, h.range hu hlen hpay]
  rfl

end

end OwnedShmSnapshot.Mirrors

open OwnedShmSnapshot

theorem Represents.shows (h : Represents m j) (hL : L.Suspended m) {deadline}
    (hok : L.snapshotOwnedUntilWithPolicy deadline policy = .ok snapshot) :
    snapshot.Shows (policy.mask m) := by
  rcases suspended_snapshot_policy hL h.header deadline policy with
    ⟨snapshot', hok', hshows⟩ | ⟨e, herror, -⟩
  · rw [hok, Except.ok.injEq] at hok'
    subst hok'
    exact hshows
  · rw [hok] at herror
    cases herror

/-- Without a deadline a snapshot of a standing mapping succeeds, and one
that succeeds has the allowed units. -/
theorem Represents.snapshots (h : Represents m j) (hL : L.Suspended m)
    (policy : ShmSnapshotPolicy) :
    (∃ snapshot, L.snapshotOwnedUntilWithPolicy none policy = .ok snapshot) ∧
      ∀ deadline snapshot, L.snapshotOwnedUntilWithPolicy deadline policy =
        .ok snapshot → snapshot.Mirrors policy m := by
  constructor
  · rcases suspended_snapshot_policy hL h.header none policy with
      ⟨snapshot, hok, -⟩ | ⟨e, -, hnone, -⟩
    · exact ⟨snapshot, hok⟩
    · cases hnone
  · intro deadline snapshot hok
    exact (h.shows hL hok).mirrors h.idle

/-! ## Texts -/

/-- The text the reader makes of a field of `size` bytes. -/
def shownText (size : Nat) (src : CString) : Option String := do
  let value ← Utf8.decode (src.bytes.take (size - 1))
  if value.any isControl then none else some (String.ofList value)

theorem zero_not_mem_bytes {src : CString} : (0 : UInt8) ∉ src.bytes := by
  cases src with
  | none => exact not_mem_nil
  | some bs =>
    intro hmem
    have := mem_takeWhile_imp hmem
    simp at this

theorem decode_fieldBytes (hsize : 0 < size) (src : CString) :
    decodeBoundedCString (fieldBytes size src) = shownText size src := by
  have hkept : ∀ b ∈ src.bytes.take (size - 1), b ≠ 0 := by
    rintro b hb rfl
    exact zero_not_mem_bytes (mem_of_mem_take hb)
  obtain ⟨zeros, hzeros⟩ : ∃ n, size - (src.bytes.take (size - 1)).length = n + 1 := by
    refine ⟨size - (src.bytes.take (size - 1)).length - 1, ?_⟩
    rw [length_take]
    omega
  have hmem : (0 : UInt8) ∈ fieldBytes size src := by
    rw [fieldBytes, hzeros]
    simp
  have htake : (fieldBytes size src).takeWhile (· ≠ 0) = src.bytes.take (size - 1) := by
    rw [fieldBytes, hzeros, takeWhile_append_of_pos (by simpa using hkept)]
    simp [replicate_succ]
  rw [decodeBoundedCString, if_pos hmem, htake]
  rfl

/-- What a text comes to after the SDK cut it to a field of `size` bytes. -/
def CutTo (size : Nat) (src : CString) (text : String) : Prop :=
  Utf8.encode text.toList = src.bytes.take (size - 1)

/-- A text without control characters. -/
def Printable (text : String) : Prop := ∀ c ∈ text.toList, isControl c = false

theorem shownText_eq_some_iff {src text} :
    shownText size src = some text ↔ CutTo size src text ∧ Printable text := by
  rw [shownText, Option.bind_eq_bind, Option.bind_eq_some_iff]
  constructor
  · rintro ⟨value, hdecode, hvalue⟩
    split at hvalue
    · cases hvalue
    next hprintable =>
    cases hvalue
    rw [Utf8.decode_eq_some_iff] at hdecode
    refine ⟨?_, ?_⟩
    · rw [CutTo, String.toList_ofList, hdecode]
    · rw [Printable, String.toList_ofList]
      simpa using hprintable
  · rintro ⟨hcut, hprintable⟩
    refine ⟨text.toList, Utf8.decode_eq_some_iff.mpr hcut, ?_⟩
    rw [if_neg (by simpa [Printable] using hprintable), String.ofList_toList]

/-- The SDK's cut leaves valid text without control characters. -/
def Legible (size : Nat) (src : CString) : Prop := ∃ text, CutTo size src text ∧ Printable text

theorem legible_iff {src} : Legible size src ↔ (shownText size src).isSome := by
  simp only [Legible, Option.isSome_iff_exists, shownText_eq_some_iff]

theorem legible_null (size : Nat) : CutTo size none "" ∧ Printable "" := by
  simp [CutTo, Printable, CString.bytes]

/-! ## Breadcrumbs -/

/-- The breadcrumb the reader makes of a record. -/
def shownRecord (args : BreadcrumbArgs) : Option RawBreadcrumb := do
  let file ← shownText breadcrumbFileLen args.file
  let message ← shownText breadcrumbMessageLen args.message
  pure {
    timestampNs := args.timestampNs.toNat
    threadId := args.threadId.toNat
    category := args.category.toNat
    severity := args.severity.toNat
    file, line := args.line.toNat, message }

/-- A record without a timestamp is taken for an empty cell. -/
def shownCrumb (args : BreadcrumbArgs) : Option RawBreadcrumb :=
  (shownRecord args).filter (·.timestampNs ≠ 0)

theorem shownCrumb_eq_some_iff {raw} :
    shownCrumb args = some raw ↔ args.timestampNs ≠ 0 ∧
      shownText breadcrumbFileLen args.file = some raw.file ∧
      shownText breadcrumbMessageLen args.message = some raw.message ∧
      raw = ⟨args.timestampNs.toNat, args.threadId.toNat, args.category.toNat,
        args.severity.toNat, raw.file, args.line.toNat, raw.message⟩ := by
  have hzero : args.timestampNs.toNat = 0 ↔ args.timestampNs = 0 := UInt64.toNat_inj (b := 0)
  rw [shownCrumb, Option.filter_eq_some_iff, shownRecord]
  simp only [Option.bind_eq_bind, Option.bind_eq_some_iff, Option.pure_def, Option.some.injEq]
  constructor
  · rintro ⟨⟨file, hfile, message, hmessage, rfl⟩, hne⟩
    refine ⟨?_, hfile, hmessage, rfl⟩
    simpa [hzero] using hne
  rintro ⟨hne, hfile, hmessage, hraw⟩
  refine ⟨⟨raw.file, hfile, raw.message, hmessage, hraw.symm⟩, ?_⟩
  rw [hraw]
  simpa [hzero] using hne

theorem shownCrumb_isSome_iff :
    (shownCrumb args).isSome ↔ args.timestampNs ≠ 0 ∧
      (shownText breadcrumbFileLen args.file).isSome ∧
      (shownText breadcrumbMessageLen args.message).isSome := by
  simp only [Option.isSome_iff_exists, shownCrumb_eq_some_iff]
  constructor
  · rintro ⟨raw, hne, hfile, hmessage, -⟩
    exact ⟨hne, ⟨_, hfile⟩, _, hmessage⟩
  · rintro ⟨hne, ⟨file, hfile⟩, message, hmessage⟩
    exact ⟨⟨_, _, _, _, file, _, message⟩, hne, hfile, hmessage, rfl⟩

/-- The records of a slot the reader looks at: the counter wraps. -/
def retained (log : List BreadcrumbArgs) : List BreadcrumbArgs :=
  log.rtake (min (log.length % 2 ^ 32) crumbRingCapacity)

section

variable (h : snapshot.Mirrors policy m) (hallows : policy.breadcrumbs = true)

include h hallows

theorem readBreadcrumb_eq {ring : Fin 8} {index} (hindex : index < crumbRingCapacity)
    (hcrumb : CrumbHolds m (crumbOffset ring index) args)
    (hargs : args.category.toNat ≤ crumbCategoryMax ∧ args.severity.toNat ≤ crumbSeverityMax) :
    snapshot.readBreadcrumb (crumbOffset ring index) = shownRecord args := by
  have hpay : ∀ a, crumbOffset ring index ≤ a → a < crumbOffset ring index + breadcrumbSize →
      (PublicationUnit.ring ring).Payload a := by
    intro a h1 h2
    simp [crumbOffset, PublicationUnit.Payload] at *
    omega
  have hword : ∀ k width, 0 < width → k + width ≤ breadcrumbSize →
      snapshot.readUnsigned width (crumbOffset ring index + k) =
        some (m.load (crumbOffset ring index + k) width) := fun k width h0 hk =>
    h.readUnsigned (u := .ring ring) hallows h0 fun a h1 h2 => hpay a (by omega) (by omega)
  have htext : ∀ k len src, 0 < len → k + len ≤ breadcrumbSize →
      m.read (crumbOffset ring index + k) len = fieldBytes len src →
      snapshot.readString (crumbOffset ring index + k) len = shownText len src := by
    intro k len src h0 hk hread
    rw [h.readString (u := .ring ring) hallows h0 fun a h1 h2 =>
      hpay a (by omega) (by omega), hread, decode_fieldBytes h0]
  rw [readBreadcrumb, readU16,
    hword _ _ (by decide) (by decide), hcrumb.category,
    hword _ _ (by decide) (by decide), hcrumb.severity,
    readU64, hword _ _ (by decide) (by decide),
    hcrumb.timestamp, readU32, hword _ _ (by decide) (by decide), hcrumb.threadId,
    htext _ _ _ (by decide) (by decide) hcrumb.file, hword _ _ (by decide) (by decide), hcrumb.line,
    htext _ _ _ (by decide) (by decide) hcrumb.message]
  simp only [Option.bind_eq_bind, Option.bind_some]
  rw [if_neg (by omega)]
  rfl

theorem readRing_eq {ring : Fin 8} {log : List BreadcrumbArgs} (hring : RingHolds m ring log) :
    snapshot.readRing (ringOffset ring) (log.length % 2 ^ 32)
        (writeIndex crumbRingCapacity log.length) =
      (retained log).reverse.filterMap shownCrumb := by
  have hcell : ∀ index < crumbRingCapacity, ∀ args ∈ log,
      CrumbHolds m (crumbOffset ring index) args →
      (snapshot.readBreadcrumb (ringOffset ring + index * breadcrumbSize)).filter
        (·.timestampNs ≠ 0) = shownCrumb args := by
    intro index hindex args hmem hcrumb
    rw [shownCrumb, ← readBreadcrumb_eq h hallows hindex hcrumb (hring.accepted args hmem)]
    rfl
  have hlength : min (log.length % 2 ^ 32) crumbRingCapacity ≤ log.length :=
    Nat.le_trans (Nat.min_le_left _ _) (Nat.mod_le _ _)
  have hwalk := hring.crumbs.filterMap_cellBack hcell hlength (Nat.min_le_right _ _)
  unfold readRing retained
  rw [← hwalk]
  rfl

theorem readRings_eq (hrings : ∀ i : Fin 8, RingHolds m i (j.crumbs i)) (rings : List (Fin 8)) :
    snapshot.readRings (rings.map (·.val)) = rings.flatMap fun i =>
      (retained (j.crumbs i)).reverse.filterMap shownCrumb := by
  induction rings with
  | nil => rfl
  | cons i rings ih =>
    have hpay : ∀ k, k + 4 ≤ ringGenerationOffset → ∀ a,
        ringOffset i + k ≤ a → a < ringOffset i + k + 4 →
        (ring i).Payload a := fun k hk a h1 h2 => ⟨by omega, by omega⟩
    have hcount : snapshot.readU32 (ringOffset i + ringCountFieldOffset) =
        some ((j.crumbs i).length % 2 ^ 32) := by
      rw [← (hrings i).count]
      exact h.readUnsigned (u := .ring i) hallows (by decide) (hpay _ (by decide))
    have hindex : snapshot.readU32 (ringOffset i + ringWriteIdxOffset) =
        some (writeIndex crumbRingCapacity (j.crumbs i).length) := by
      rw [← (hrings i).writeIdx]
      exact h.readUnsigned (u := .ring i) hallows (by decide) (hpay _ (by decide))
    rw [map_cons, readRings, hcount, hindex, ih, flatMap_cons]
    dsimp only
    rw [readRing_eq h hallows (hrings i)]

/-- `read_breadcrumbs` on a represented journal. Rings beyond the registered
ones took no record. -/
theorem readBreadcrumbs_eq (hj : Represents m j) :
    snapshot.readBreadcrumbs = sortByKey RawBreadcrumb.timestampNs
      ((List.finRange 8).flatMap fun i =>
        (retained (j.crumbs i)).reverse.filterMap shownCrumb) := by
  have hregistry : RegistryHolds m j.crumbs := hj.units .registry
  have hbound := hregistry.ringCount
  have hcount : snapshot.readU32 ringCountOffset = some (m.load ringCountOffset 4) :=
    h.readUnsigned (u := .registry) hallows (by decide) fun a h1 h2 => ⟨h1, h2⟩
  have hregistered := hregistry.registered
  generalize m.load ringCountOffset 4 = ringCount at hbound hcount hregistered
  have hrange : ∀ n ≤ 8, .range n = ((List.finRange 8).take n).map (·.val) := by decide
  have hdrop : ∀ n ≤ 8, ∀ i ∈ (List.finRange 8).drop n, n ≤ i.val := by decide
  have hrest : ((List.finRange 8).drop ringCount).flatMap (fun i =>
      (retained (j.crumbs i)).reverse.filterMap shownCrumb) = [] := by
    rw [flatMap_eq_nil_iff]
    intro i hi
    have hnil : j.crumbs i = [] := by
      by_contra hne
      have := hregistered i hne
      have := hdrop ringCount hbound i hi
      omega
    rw [hnil]
    rfl
  rw [readBreadcrumbs, hcount]
  dsimp only
  rw [if_neg (Nat.not_lt.mpr hbound), hrange ringCount hbound,
    readRings_eq h hallows fun i => hj.units (.ring i)]
  congr 1
  conv_rhs => rw [← take_append_drop ringCount (.finRange 8), flatMap_append, hrest, append_nil]

/-- Up to the order, the reader returns what it makes of the records it looks
at. -/
theorem readBreadcrumbs_perm (hj : Represents m j) :
    snapshot.readBreadcrumbs.Perm (((List.finRange 8).flatMap fun i =>
      retained (j.crumbs i)).filterMap shownCrumb) := by
  rw [readBreadcrumbs_eq h hallows hj, filterMap_flatMap]
  refine sortByKey_perm.trans (List.Perm.flatMap_left _ fun i _ => ?_)
  rw [filterMap_reverse]
  exact reverse_perm _

end

theorem readBreadcrumbs_sorted :
    SortedByKey RawBreadcrumb.timestampNs snapshot.readBreadcrumbs := by
  unfold readBreadcrumbs
  split
  · exact .nil
  split
  · exact .nil
  · exact sortByKey_sorted

/-! ## Tables -/

/-- A pair of texts as the reader decodes it. -/
def shownPair (keyLen valueLen : Nat) (pair : CString × CString) : Option (String × String) := do
  let key ← shownText keyLen pair.1
  let value ← shownText valueLen pair.2
  pure (key, value)

section

variable (h : snapshot.Mirrors policy m)

include h

/-- One pair of a table that lies in an allowed unit. -/
theorem readPair_eq (hu : policy.allows u = true) {T : Table} (hkey : 0 < T.keyLen)
    (hvalue : 0 < T.valueLen) (hT : ∀ a, T.Region a → u.Payload a) {pairs}
    (hpairs : T.Holds m pairs) {i} (hi : i < pairs.length) :
    snapshot.readPair (T.base + i * T.stride) T.keyLen T.valueLen =
      shownPair T.keyLen T.valueLen pairs[i] := by
  have hfit := T.fields_fit
  have hle : (i + 1) * T.stride ≤ T.max * T.stride :=
    Nat.mul_le_mul_right _ (Nat.lt_of_lt_of_le hi hpairs.bounded)
  rw [Nat.add_mul, Nat.one_mul] at hle
  have hpay : ∀ a, T.base + i * T.stride ≤ a →
      a < T.base + i * T.stride + T.stride → u.Payload a := fun a h1 h2 =>
    hT a (.inr ⟨by omega, by omega⟩)
  rw [readPair, h.readString hu hkey fun a h1 h2 => hpay a (by omega) (by omega),
    h.readString hu hvalue fun a h1 h2 => hpay a (by omega) (by omega),
    hpairs.key i hi, hpairs.value i hi, decode_fieldBytes hkey, decode_fieldBytes hvalue]
  rfl

theorem readCount_eq (hu : policy.allows u = true) {T : Table} (hT : ∀ a, T.Region a → u.Payload a)
    {pairs} (hpairs : T.Holds m pairs) : snapshot.readU32 T.countAt = some pairs.length := by
  rw [readU32, h.readUnsigned hu (by decide)
    fun a h1 h2 => hT a (.inl ⟨h1, h2⟩), hpairs.count]

/-- The annotations are read all or none. -/
theorem readAnnotations_eq (hallows : policy.context = true) (hj : ContextHolds m j.annotations) :
    snapshot.readAnnotations = j.annotations.mapM
      (shownPair annotationKeyLen annotationValueLen) := by
  have hcount : snapshot.readU32 (contextOffset + annotationCountOffset) =
      some j.annotations.length := readCount_eq (u := .context) h hallows (T := annotationTable)
      (fun a => annotationTable_region) hj.table
  have hbound : j.annotations.length ≤ maxAnnotations := hj.table.bounded
  rw [readAnnotations, hcount]
  simp only [Option.bind_eq_bind, Option.bind_some]
  rw [if_neg (by
    simp only [maxAnnotations] at hbound ⊢
    omega)]
  exact mapM_range_getElem fun i hi => readPair_eq (u := .context) h hallows
    (T := annotationTable) (by decide) (by decide) (fun a => annotationTable_region) hj.table hi

/-- No issue of a mirrored snapshot is about a unit. -/
theorem OwnedShmSnapshot.Mirrors.any_issue {p}
    (u : PublicationUnit) (hp : ∀ issue, p issue = true → issue.unit = some u) :
    snapshot.consistencyIssues.any p = false := by
  rw [any_eq_false]
  intro issue hmem hissue
  exact h.issues u ⟨issue, hmem, hp issue hissue⟩

/-- Metadata the SDK never writes reads as empty texts. -/
theorem readMetadata_eq (hallows : policy.context = true)
    {annotations} (hj : ContextHolds m annotations) {k len}
    (hlen : 0 < len) (h1 : sessionStartOffset ≤ k) (h2 : k + len ≤ annotationCountOffset) :
    snapshot.readString (contextOffset + k) len = some "" := by
  have hzero : m.read (contextOffset + k) len = fieldBytes len none := by
    refine ext_getElem (by simp) fun i hi1 hi2 => ?_
    simp only [Mem.read_length] at hi1
    simp only [Mem.read, getElem_map, getElem_range, fieldBytes,
      CString.bytes, take_nil, nil_append, getElem_replicate]
    exact hj.metadata _ (by omega) (by omega)
  rw [h.readString (u := .context) hallows hlen fun a ha1 ha2 => ⟨?_, ?_⟩,
    hzero, decode_fieldBytes hlen, shownText_eq_some_iff.mpr (legible_null len)]
  · simp only [sessionStartOffset] at h1
    omega
  · simp only [annotationCountOffset, crashContextSize] at h2 ⊢
    omega

/-- The context is available exactly if all annotations decode. -/
theorem readContext_annotations (hallows : policy.context = true)
    (hj : ContextHolds m j.annotations) :
    snapshot.readContext.map RawCrashContext.annotations =
      j.annotations.mapM (shownPair annotationKeyLen annotationValueLen) := by
  have hword : ∀ width offset, offset + width ≤ footerOffset →
      ∃ n, snapshot.readUnsigned width offset = some n := by
    intro width offset hle
    rw [readUnsigned, OwnedShmSnapshot.range, h.payloadLen, h.len, if_neg (by
        simp at hle ⊢
        omega)]
    exact ⟨_, rfl⟩
  obtain ⟨beat, hbeat⟩ := hword 8 heartbeatOffset (by decide)
  obtain ⟨start, hstart⟩ := hword 8 (contextOffset + sessionStartOffset) (by decide)
  obtain ⟨build, hbuild⟩ := hword 4 (contextOffset + buildNumberOffset) (by decide)
  obtain ⟨dirty, hdirty⟩ := hword 1 (contextOffset + gitDirtyOffset) (by decide)
  rw [readContext, h.any_issue .context, if_neg Bool.false_ne_true,
    readU64, hbeat, hstart, readU32, hbuild,
    readU8, hdirty, readAnnotations_eq h hallows hj]
  · simp (disch := decide) only [readMetadata_eq h hallows hj]
    cases j.annotations.mapM (shownPair annotationKeyLen annotationValueLen) <;>
      rfl
  · intro issue hissue
    cases issue <;> first | rfl | cases hissue

end

/-- An extension entry; an empty key is refused. -/
def shownEntry (pair : CString × CString) : Option (String × String) := do
  let entry ← shownPair extensionKeyLen extensionValueLen pair
  if entry.1 = "" then none else some entry

/-- Once it has an entry, the extension is available exactly if all entries
decode. -/
theorem readSettings_values (h : snapshot.Mirrors policy m) (hallows : policy.context = true)
    (hj : SettingsHolds m j.extensions) (hne : j.extensions ≠ []) :
    snapshot.readSettings.map RawSettingsSnapshot.values = j.extensions.mapM shownEntry := by
  have hbound : j.extensions.length ≤ producerExtensionMaxEntries := hj.table.bounded
  have hversion : snapshot.readU32 settingsOffset = some producerExtensionVersion := by
    rw [readU32, h.readUnsigned (u := .settings) hallows
      (by decide) fun a h1 h2 => ⟨h1, ?_⟩, hj.version hne]
    simp only [settingsSize]
    omega
  have hcount : snapshot.readU32 (settingsOffset + entryCountOffset) = some j.extensions.length :=
    readCount_eq (u := .settings) h hallows (T := extensionTable)
      (fun a => extensionTable_region) hj.table
  have hvalues : ((List.range j.extensions.length).mapM fun index => do
      let entry ← snapshot.readPair (settingsOffset + entriesOffset + index * extensionEntrySize)
        extensionKeyLen extensionValueLen
      if entry.1 = "" then none else some entry) =
      j.extensions.mapM shownEntry := by
    refine mapM_range_getElem fun i hi => ?_
    congr 1
    exact readPair_eq (u := .settings) h hallows (T := extensionTable)
      (by decide) (by decide) (fun a => extensionTable_region) hj.table hi
  rw [readSettings, h.any_issue .settings, if_neg Bool.false_ne_true, hversion]
  · simp only [Option.bind_eq_bind, Option.bind_some] at hvalues ⊢
    rw [if_neg (not_not_intro rfl), hcount]
    simp only [Option.bind_some]
    rw [if_neg (Nat.not_lt.mpr hbound), hvalues]
    cases j.extensions.mapM shownEntry <;> rfl
  · intro issue hissue
    cases issue <;> first | rfl | cases hissue

/-- An attachment; an empty path is skipped. -/
def shownAttachment (pair : CString × CString) : Option RawAttachment := do
  let slot ← shownPair attachmentLabelLen attachmentPathLen pair
  if slot.2 = "" then none else some ⟨slot.1, slot.2⟩

theorem readAttachments_eq (h : snapshot.Mirrors policy m) (hallows : policy.attachments = true)
    (hj : attachmentTable.Holds m j.attachments) :
    snapshot.readAttachments = j.attachments.filterMap shownAttachment := by
  have hcount : snapshot.readU32 attachmentOffset = some j.attachments.length :=
    readCount_eq (u := .attachments) h hallows (T := attachmentTable)
      (fun a => attachmentTable_region) hj
  have hbound : j.attachments.length ≤ maxAttachments := hj.bounded
  rw [readAttachments, h.any_issue .attachments, if_neg Bool.false_ne_true, hcount]
  · dsimp only
    rw [if_neg (Nat.not_lt.mpr hbound)]
    refine filterMap_range_getElem fun i hi => ?_
    congr 1
    exact readPair_eq (u := .attachments) h hallows (T := attachmentTable)
      (by decide) (by decide) (fun a => attachmentTable_region) hj hi
  · intro issue hissue
    cases issue <;> first | rfl | cases hissue

end CrashMonitor.Shm
