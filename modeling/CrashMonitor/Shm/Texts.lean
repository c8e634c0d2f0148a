import CrashMonitor.Shm.RoundTrip
import Mathlib.Data.List.Flatten

/-!
# Shared memory — what becomes of a text

The SDK cuts a text at the size of its field, by bytes; the reader decodes
strictly and drops what it cannot decode: the breadcrumb, the attachment, the
whole context, the whole extension. After a run of calls with valid texts
everything accepted is still there exactly if no cut fell inside a character,
no extension key was empty, and nothing the reader takes for an empty cell or
an empty ring was written.
-/

namespace CrashMonitor.Shm

open Bytes Fallible Option List

variable {m₀ : Mem} {calls : List SdkCall} {L : LiveMapping}
variable {policy : ShmSnapshotPolicy} {snapshot : OwnedShmSnapshot}
variable {size : Nat} {src : CString} {text : String}
variable {α : Type} {pairs : List (CString × CString)}

/-! ## Valid texts -/

/-- The bytes up to the terminator are this text's. -/
def CString.Spells (src : CString) (text : String) : Prop := Utf8.encode text.toList = src.bytes

/-- Valid UTF-8 without control characters, of any length. -/
def CString.Valid (src : CString) : Prop := ∃ text, src.Spells text ∧ Printable text

/-- The shown text is the given one, cut at a character boundary. -/
def CutOf (src : CString) (shown : String) : Prop :=
  ∃ text, src.Spells text ∧ shown.toList <+: text.toList

/-- A field of `size` bytes cuts the text at a character boundary. -/
def FitsField (size : Nat) (src : CString) : Prop :=
  ∃ text, src.Spells text ∧ Utf8.CutsAtBoundary (size - 1) text.toList

theorem CString.Spells.unique {text'} (h : src.Spells text)
    (h' : src.Spells text') : text = text' :=
  String.toList_inj.mp (Utf8.encode_injective (h.trans h'.symm))

theorem cutOf_of_shownText (hvalid : src.Valid)
    (h : shownText size src = some text) : CutOf src text := by
  obtain ⟨whole, hspells, -⟩ := hvalid
  obtain ⟨hcut, -⟩ := shownText_eq_some_iff.mp h
  refine ⟨whole, hspells, Utf8.isPrefix_of_encode_isPrefix ?_⟩
  rw [hcut, hspells]
  exact take_prefix _ _

/-- A valid text is shown exactly if its field cuts it at a boundary. -/
theorem fitsField_iff (hvalid : src.Valid) : FitsField size src ↔ (shownText size src).isSome := by
  obtain ⟨text, hspells, hprintable⟩ := hvalid
  rw [isSome_iff_exists]
  constructor
  · rintro ⟨text', hspells', part, hinit, hpart⟩
    obtain rfl := hspells.unique hspells'
    refine ⟨.ofList part, shownText_eq_some_iff.mpr ⟨?_, ?_⟩⟩
    · rw [CutTo, String.toList_ofList, hpart, hspells]
    intro c hc
    rw [String.toList_ofList] at hc
    exact hprintable c (hinit.subset hc)
  · rintro ⟨shown, hshown⟩
    obtain ⟨hcut, -⟩ := shownText_eq_some_iff.mp hshown
    refine ⟨text, hspells, Utf8.cutsAtBoundary_iff.mpr ?_⟩
    rw [hspells, ← hcut, Utf8.decode_encode]
    rfl

/-- A field with room for a byte shows the empty text for none but an empty
one. -/
theorem shownText_eq_empty_iff (hsize : 1 < size)
    (h : shownText size src = some text) : text = "" ↔ src.bytes = [] := by
  obtain ⟨hcut, -⟩ := shownText_eq_some_iff.mp h
  rw [CutTo] at hcut
  constructor
  · rintro rfl
    have hnil : src.bytes.take (size - 1) = [] := hcut.symm
    rcases take_eq_nil_iff.mp hnil with hzero | hbytes
    · omega
    · exact hbytes
  · intro hnil
    rw [hnil, take_nil] at hcut
    exact String.toList_inj.mp (Utf8.encode_injective hcut)

/-! ## Lists of accepted calls -/

/-- The texts of a call are valid; of an attachment this is the label. -/
def SdkCall.ValidTexts : SdkCall → Prop
  | .addBreadcrumb args => args.file.Valid ∧ args.message.Valid
  | .annotate key value => key.Valid ∧ value.Valid
  | .setExtension key value => key.Valid ∧ value.Valid
  | .registerAttachment label _ => label.Valid
  | _ => True

/-- The calls that returned 0 in a run from `m`. -/
def acceptedCalls (calls : List SdkCall) (m : Mem) : List SdkCall :=
  acceptedOf calls (runCalls calls m).1

theorem acceptedOf_subset {calls statuses} : acceptedOf calls statuses ⊆ calls := by
  induction calls generalizing statuses with
  | nil => simp [acceptedOf]
  | cons call calls ih =>
    cases statuses with
    | nil => simp [acceptedOf]
    | cons status statuses =>
      rw [acceptedOf]
      split
      · exact cons_subset_cons call ih
      · exact subset_cons_of_subset call ih

open SdkCall

/-- The records a reader may expect: the newest of every slot. -/
def newestCrumbs (calls : List SdkCall) : List BreadcrumbArgs :=
  (finRange 8).flatMap fun slot => (calls.filterMap (crumbFor slot)).rtake crumbRingCapacity

/-- The attachments with a path. -/
def pathAttachments (calls : List SdkCall) : List (CString × CString) :=
  (calls.filterMap attachmentPair).filter (·.2.bytes ≠ [])

/-- The mapping after a run represents the accepted calls. -/
theorem runCalls_accepted (hm : FreshMapping m₀) {calls} :
    ∃ j, Represents (runCalls calls m₀).2 j ∧
      (∀ slot, j.crumbs slot =
        (acceptedCalls calls m₀).filterMap (crumbFor slot)) ∧
      j.annotations =
        (acceptedCalls calls m₀).filterMap annotationPair ∧
      j.extensions =
        (acceptedCalls calls m₀).filterMap extensionPair ∧
      j.attachments = (acceptedCalls calls m₀).filterMap attachmentPair := by
  obtain ⟨hstatus, hrep⟩ := runCalls_represents hm.represents calls
  rw [acceptedCalls, hstatus]
  exact ⟨_, hrep, fun slot => (Journal.collects_crumbs slot).runCalls _ _,
    Journal.collects_annotations.runCalls _ _, Journal.collects_extensions.runCalls _ _,
    Journal.collects_attachments.runCalls _ _⟩

/-! ## What should be kept, and when it is -/

/-- The record's breadcrumb, its texts cut at character boundaries. -/
structure KeepsRecord (raw : RawBreadcrumb) (args : BreadcrumbArgs) : Prop where
  timestampNs : raw.timestampNs = args.timestampNs.toNat
  threadId : raw.threadId = args.threadId.toNat
  category : raw.category = args.category.toNat
  severity : raw.severity = args.severity.toNat
  file : CutOf args.file raw.file
  line : raw.line = args.line.toNat
  message : CutOf args.message raw.message

/-- The pair, both texts cut at character boundaries. -/
def KeepsPair (shown : String × String) (pair : CString × CString) : Prop :=
  CutOf pair.1 shown.1 ∧ CutOf pair.2 shown.2

def KeepsAttachment (raw : RawAttachment) (pair : CString × CString) : Prop :=
  CutOf pair.1 raw.label ∧ CutTo attachmentPathLen pair.2 raw.path

/-- Everything the calls published and that was not overwritten is there. -/
structure TextsKept (calls : List SdkCall) (snapshot : OwnedShmSnapshot) : Prop where
  breadcrumbs : ∃ shown, snapshot.readBreadcrumbs.Perm shown ∧
    Forall₂ KeepsRecord shown (newestCrumbs calls)
  context : ∃ context, snapshot.readContext = some context ∧
    Forall₂ KeepsPair context.annotations (calls.filterMap annotationPair)
  settings : calls.filterMap extensionPair ≠ [] →
    ∃ settings, snapshot.readSettings = some settings ∧ Forall₂ KeepsPair settings.values
        (calls.filterMap extensionPair)
  attachments : Forall₂ KeepsAttachment snapshot.readAttachments (pathAttachments calls)

/-- The condition: every cut falls on a character boundary, extension keys
are not empty, timestamps are not zero, and no record counter has wrapped to
less than what its ring holds. -/
structure TextsFit (calls : List SdkCall) : Prop where
  breadcrumbs : ∀ args ∈ newestCrumbs calls, args.timestampNs ≠ 0 ∧
    FitsField breadcrumbFileLen args.file ∧ FitsField breadcrumbMessageLen args.message
  counters : ∀ slot,
    min (calls.filterMap (crumbFor slot)).length crumbRingCapacity ≤
      (calls.filterMap (crumbFor slot)).length % 2 ^ 32
  annotations : ∀ pair ∈ calls.filterMap annotationPair,
    FitsField annotationKeyLen pair.1 ∧ FitsField annotationValueLen pair.2
  extensions : ∀ pair ∈ calls.filterMap extensionPair,
    pair.1.bytes ≠ [] ∧ FitsField extensionKeyLen pair.1 ∧ FitsField extensionValueLen pair.2
  attachments : ∀ pair ∈ pathAttachments calls,
    FitsField attachmentLabelLen pair.1 ∧ Legible attachmentPathLen pair.2

/-! ## Breadcrumbs -/

/-- Parts that are no longer than their wholes are equal to them if they are
as long together. -/
theorem flatMap_eq_of_length {β : Type} {l : List α} {f g : α → List β}
    (hsub : ∀ i ∈ l, (f i).Sublist (g i))
    (hlength : (l.flatMap f).length = (l.flatMap g).length) : ∀ i ∈ l, f i = g i := by
  induction l with
  | nil => simp
  | cons x xs ih =>
    rw [forall_mem_cons] at hsub ⊢
    rw [flatMap_cons, flatMap_cons, length_append, length_append] at hlength
    have hx := hsub.1.length_le
    have hxs := (Sublist.flatMap_right xs hsub.2).length_le
    exact ⟨hsub.1.eq_of_length (by omega), ih hsub.2 (by omega)⟩

theorem retained_sublist (log : List BreadcrumbArgs) :
    (retained log).Sublist (log.rtake crumbRingCapacity) := by
  refine IsSuffix.sublist (drop_suffix_drop_left log ?_)
  omega

/-- The reader looks at all newest records exactly if the counter has not
wrapped to less. -/
theorem retained_eq_iff {log} :
    retained log = log.rtake crumbRingCapacity ↔
      min log.length crumbRingCapacity ≤ log.length % 2 ^ 32 := by
  constructor
  · intro heq
    have hlength := congrArg length heq
    rw [retained, rtake, rtake, length_drop, length_drop] at hlength
    omega
  · intro hle
    refine (retained_sublist log).eq_of_length ?_
    rw [retained, rtake, rtake, length_drop, length_drop]
    omega

theorem keepsRecord_of_shownCrumb {args raw} (hfile : args.file.Valid)
    (hmessage : args.message.Valid) (h : shownCrumb args = some raw) : KeepsRecord raw args := by
  obtain ⟨-, hf, hm, hraw⟩ := shownCrumb_eq_some_iff.mp h
  have hcuts := And.intro (cutOf_of_shownText hfile hf) (cutOf_of_shownText hmessage hm)
  rw [hraw]
  exact ⟨rfl, rfl, rfl, rfl, hcuts.1, rfl, hcuts.2⟩

/-- All newest records are returned exactly if all are readable and looked
at. -/
theorem newest_kept_iff {found : List RawBreadcrumb} {crumbs : Fin 8 → List BreadcrumbArgs} {R}
    (hperm : found.Perm (((finRange 8).flatMap fun slot =>
      retained (crumbs slot)).filterMap shownCrumb))
    (hkeeps : ∀ args ∈ (finRange 8).flatMap fun slot =>
      (crumbs slot).rtake crumbRingCapacity, ∀ raw, shownCrumb args = some raw → R raw args) :
    (∃ shown, found.Perm shown ∧ Forall₂ R shown ((finRange 8).flatMap fun slot =>
        (crumbs slot).rtake crumbRingCapacity)) ↔ (∀ args ∈ (finRange 8).flatMap fun slot =>
        (crumbs slot).rtake crumbRingCapacity, (shownCrumb args).isSome) ∧
      ∀ slot, min (crumbs slot).length crumbRingCapacity ≤ (crumbs slot).length % 2 ^ 32 := by
  constructor
  · rintro ⟨shown, hshown, hall⟩
    -- nothing can be missing, or there would be too few
    have hsub := Sublist.flatMap_right (finRange 8)
      fun slot _ => retained_sublist (crumbs slot)
    have hfound := (hperm.symm.trans hshown).length_eq.trans hall.length_eq
    have hle := length_filterMap_le shownCrumb
      ((finRange 8).flatMap fun slot => retained (crumbs slot))
    have hlength := Nat.le_antisymm hsub.length_le (hfound.ge.trans hle)
    have heach := flatMap_eq_of_length (fun slot _ => retained_sublist ..) hlength
    rw [hsub.eq_of_length hlength] at hfound
    exact ⟨filterMap_length_eq_length.mp hfound, fun slot =>
      retained_eq_iff.mp (heach slot (mem_finRange slot))⟩
  · rintro ⟨hsome, hcounters⟩
    have hall : (fun slot => retained (crumbs slot)) =
        fun slot => (crumbs slot).rtake crumbRingCapacity :=
      funext fun slot => retained_eq_iff.mpr (hcounters slot)
    rw [hall] at hperm
    exact ⟨_, hperm, (forall₂_filterMap_iff hkeeps).mpr hsome⟩

/-- A newest record with valid texts is kept as far as it is shown. -/
theorem keepsRecord_of_newest {crumbs : Fin 8 → List BreadcrumbArgs}
    (hvalid : ∀ slot, ∀ args ∈ crumbs slot, args.file.Valid ∧ args.message.Valid) :
    ∀ args ∈ (finRange 8).flatMap fun slot => (crumbs slot).rtake crumbRingCapacity, ∀ raw,
      shownCrumb args = some raw → KeepsRecord raw args := by
  intro args hargs raw hraw
  obtain ⟨slot, -, hmem⟩ := mem_flatMap.mp hargs
  obtain ⟨hfile, hmessage⟩ := hvalid slot args (mem_of_mem_drop hmem)
  exact keepsRecord_of_shownCrumb hfile hmessage hraw

/-! ## Tables -/

section Pairs

variable {keyLen valueLen : Nat} {pair : CString × CString}
variable {shown : String × String}

theorem shownPair_eq_some_iff :
    shownPair keyLen valueLen pair = some shown ↔
      shownText keyLen pair.1 = some shown.1 ∧ shownText valueLen pair.2 = some shown.2 := by
  rw [shownPair]
  simp only [Option.bind_eq_bind, Option.bind_eq_some_iff, Option.pure_def, Option.some.injEq]
  constructor
  · rintro ⟨key, hkey, value, hvalue, rfl⟩
    exact ⟨hkey, hvalue⟩
  · rintro ⟨hkey, hvalue⟩
    exact ⟨shown.1, hkey, shown.2, hvalue, rfl⟩

theorem shownPair_isSome_iff : (shownPair keyLen valueLen pair).isSome ↔
    (shownText keyLen pair.1).isSome ∧ (shownText valueLen pair.2).isSome := by
  simp only [isSome_iff_exists, shownPair_eq_some_iff]
  constructor
  · rintro ⟨shown, hkey, hvalue⟩
    exact ⟨⟨_, hkey⟩, _, hvalue⟩
  · rintro ⟨⟨key, hkey⟩, value, hvalue⟩
    exact ⟨(key, value), hkey, hvalue⟩

theorem keepsPair_of_shownPair (hkey : pair.1.Valid) (hvalue : pair.2.Valid)
    (h : shownPair keyLen valueLen pair = some shown) : KeepsPair shown pair := by
  obtain ⟨h1, h2⟩ := shownPair_eq_some_iff.mp h
  exact ⟨cutOf_of_shownText hkey h1, cutOf_of_shownText hvalue h2⟩

theorem shownEntry_eq_some_iff :
    shownEntry pair = some shown ↔ pair.1.bytes ≠ [] ∧
      shownPair extensionKeyLen extensionValueLen pair = some shown := by
  rw [shownEntry, bind_eq_bind, bind_eq_some_iff]
  constructor
  · rintro ⟨entry, hentry, hne⟩
    split at hne
    · cases hne
    next hkey =>
    cases hne
    obtain ⟨h1, -⟩ := shownPair_eq_some_iff.mp hentry
    rw [shownText_eq_empty_iff (by decide) h1] at hkey
    exact ⟨hkey, hentry⟩
  · rintro ⟨hkey, hentry⟩
    obtain ⟨h1, -⟩ := shownPair_eq_some_iff.mp hentry
    rw [Ne, ← shownText_eq_empty_iff (by decide) h1] at hkey
    exact ⟨shown, hentry, if_neg hkey⟩

theorem shownAttachment_eq_some_iff {raw} :
    shownAttachment pair = some raw ↔ pair.2.bytes ≠ [] ∧
      shownPair attachmentLabelLen attachmentPathLen pair = some (raw.label, raw.path) := by
  rw [shownAttachment, bind_eq_bind, bind_eq_some_iff]
  constructor
  · rintro ⟨slot, hslot, hne⟩
    split at hne
    · cases hne
    next hpath =>
    cases hne
    obtain ⟨-, h2⟩ := shownPair_eq_some_iff.mp hslot
    rw [shownText_eq_empty_iff (by decide) h2] at hpath
    exact ⟨hpath, hslot⟩
  · rintro ⟨hpath, hslot⟩
    obtain ⟨-, h2⟩ := shownPair_eq_some_iff.mp hslot
    rw [Ne, ← shownText_eq_empty_iff (by decide) h2] at hpath
    exact ⟨_, hslot, if_neg hpath⟩

end Pairs

/-- A reading that is available with its list. -/
theorem exists_reading_iff {β : Type} {found} {f : α → List β}
    {wanted} {P : List β → Prop} (h : found.map f = wanted) :
    (∃ reading, found = some reading ∧ P (f reading)) ↔ ∃ l, wanted = some l ∧ P l := by
  subst h
  cases found <;> simp

theorem annotations_kept_iff {found}
    (h : found.map RawCrashContext.annotations =
      pairs.mapM (shownPair annotationKeyLen annotationValueLen))
    (hvalid : ∀ pair ∈ pairs, pair.1.Valid ∧ pair.2.Valid) :
    (∃ context, found = some context ∧
      Forall₂ KeepsPair context.annotations pairs) ↔
    ∀ pair ∈ pairs, FitsField annotationKeyLen pair.1 ∧ FitsField annotationValueLen pair.2 := by
  rw [exists_reading_iff (P := fun l => Forall₂ KeepsPair l pairs) h,
    forall₂_mapM_iff fun pair hpair shown =>
      keepsPair_of_shownPair (hvalid pair hpair).1 (hvalid pair hpair).2]
  refine forall₂_congr fun pair hpair => ?_
  rw [shownPair_isSome_iff, fitsField_iff (hvalid pair hpair).1,
    fitsField_iff (hvalid pair hpair).2]

theorem extensions_kept_iff {found}
    (h : pairs ≠ [] → found.map RawSettingsSnapshot.values = pairs.mapM shownEntry)
    (hvalid : ∀ pair ∈ pairs, pair.1.Valid ∧ pair.2.Valid) :
    (pairs ≠ [] → ∃ settings, found = some settings ∧
      Forall₂ KeepsPair settings.values pairs) ↔
    ∀ pair ∈ pairs, pair.1.bytes ≠ [] ∧ FitsField extensionKeyLen pair.1 ∧
      FitsField extensionValueLen pair.2 := by
  by_cases hne : pairs = []
  · subst hne
    simp
  have hkeeps : ∀ pair ∈ pairs, ∀ shown, shownEntry pair = some shown →
      KeepsPair shown pair := fun pair hpair shown hshown =>
    keepsPair_of_shownPair (hvalid pair hpair).1 (hvalid pair hpair).2
      (shownEntry_eq_some_iff.mp hshown).2
  have hsome : ∀ pair ∈ pairs, (shownEntry pair).isSome ↔
      pair.1.bytes ≠ [] ∧ FitsField extensionKeyLen pair.1 ∧
        FitsField extensionValueLen pair.2 := by
    intro pair hpair
    rw [fitsField_iff (hvalid pair hpair).1, fitsField_iff (hvalid pair hpair).2,
      ← shownPair_isSome_iff]
    simp only [isSome_iff_exists, shownEntry_eq_some_iff, exists_and_left]
  rw [exists_reading_iff (P := fun l => Forall₂ KeepsPair l pairs) (h hne),
    forall₂_mapM_iff hkeeps, forall₂_congr hsome]
  exact ⟨fun hall => hall hne, fun hall _ => hall⟩

theorem attachments_kept_iff (hvalid : ∀ pair ∈ pairs, pair.1.Valid) :
    Forall₂ KeepsAttachment (pairs.filterMap shownAttachment)
      (pairs.filter (·.2.bytes ≠ [])) ↔ ∀ pair ∈ pairs.filter (·.2.bytes ≠ []),
      FitsField attachmentLabelLen pair.1 ∧ Legible attachmentPathLen pair.2 := by
  have hskip : pairs.filterMap shownAttachment =
      (pairs.filter (·.2.bytes ≠ [])).filterMap shownAttachment := by
    rw [filterMap_filter]
    refine filterMap_congr fun pair _ => ?_
    by_cases hpath : pair.2.bytes = []
    · have hnone : shownAttachment pair = none := eq_none_iff_forall_ne_some.mpr fun raw hraw =>
          (shownAttachment_eq_some_iff.mp hraw).1 hpath
      simp [hpath, hnone]
    · simp [hpath]
  have hkeeps : ∀ pair ∈ pairs.filter (·.2.bytes ≠ []), ∀ raw,
      shownAttachment pair = some raw → KeepsAttachment raw pair := by
    intro pair hpair raw hraw
    obtain ⟨h1, h2⟩ := shownPair_eq_some_iff.mp (shownAttachment_eq_some_iff.mp hraw).2
    exact ⟨cutOf_of_shownText (hvalid pair (mem_of_mem_filter hpair)) h1,
      (shownText_eq_some_iff.mp h2).1⟩
  rw [hskip, forall₂_filterMap_iff hkeeps]
  refine forall₂_congr fun pair hpair => ?_
  have hpath : pair.2.bytes ≠ [] := by simpa using (mem_filter.mp hpair).2
  rw [fitsField_iff (hvalid pair (mem_of_mem_filter hpair)), legible_iff, ← shownPair_isSome_iff]
  simp only [isSome_iff_exists, shownAttachment_eq_some_iff]
  constructor
  · rintro ⟨raw, -, hshown⟩
    exact ⟨_, hshown⟩
  · rintro ⟨shown, hshown⟩
    exact ⟨⟨shown.1, shown.2⟩, hpath, hshown⟩

/-! ## Runs -/

/-- What holds of the texts of all calls holds of what the accepted ones
publish. -/
theorem accepted_valid (htexts : ∀ call ∈ calls, call.ValidTexts) {statuses taken} {P : α → Prop}
    (htaken : ∀ call x, taken call = some x → call.ValidTexts → P x) :
    ∀ x ∈ (acceptedOf calls statuses).filterMap taken, P x := by
  intro x hx
  obtain ⟨call, hcall, hx⟩ := mem_filterMap.mp hx
  exact htaken call x hx (htexts call (acceptedOf_subset hcall))

/-- **Texts stay readable exactly if they fit.** After any run of calls with
valid texts on a fresh mapping, a snapshot that shows the sections yields
everything accepted, each text cut at a character boundary, if and only if
the accepted calls meet `TextsFit`. -/
theorem sdk_texts_kept_iff (hm : FreshMapping m₀) (htexts : ∀ call ∈ calls, call.ValidTexts)
    (hL : L.Suspended (runCalls calls m₀).2) (hcrumbs : policy.breadcrumbs = true)
    (hcontext : policy.context = true) (hattachments : policy.attachments = true)
    {deadline : Option Nat} (hok : L.snapshotOwnedUntilWithPolicy deadline policy = .ok snapshot) :
    TextsKept (acceptedCalls calls m₀) snapshot ↔ TextsFit (acceptedCalls calls m₀) := by
  obtain ⟨j, hrep, hjcrumbs, hjannotations, hjextensions, hjattachments⟩ := runCalls_accepted hm
  have hmirrors := (hrep.snapshots hL policy).2 deadline snapshot hok
  have hrecords : ∀ slot, ∀ args ∈ (acceptedCalls calls m₀).filterMap
      (crumbFor slot), args.file.Valid ∧ args.message.Valid := by
    intro slot
    refine accepted_valid htexts fun call args hcall hvalid => ?_
    cases call <;> simp only [crumbFor, reduceCtorEq, ite_none_right_eq_some, some.injEq] at hcall
    rw [← hcall.2]
    exact hvalid
  have hannotated : ∀ pair ∈ (acceptedCalls calls m₀).filterMap
      annotationPair, pair.1.Valid ∧ pair.2.Valid := by
    refine accepted_valid htexts fun call pair hcall hvalid => ?_
    cases call <;> cases hcall
    exact hvalid
  have hextended : ∀ pair ∈ (acceptedCalls calls m₀).filterMap
      extensionPair, pair.1.Valid ∧ pair.2.Valid := by
    refine accepted_valid htexts fun call pair hcall hvalid => ?_
    cases call <;> cases hcall
    exact hvalid
  have hlabels : ∀ pair ∈ (acceptedCalls calls m₀).filterMap attachmentPair, pair.1.Valid := by
    refine accepted_valid htexts fun call pair hcall hvalid => ?_
    cases call <;> cases hcall
    exact hvalid
  have hperm := readBreadcrumbs_perm hmirrors hcrumbs hrep
  simp only [hjcrumbs] at hperm
  have hcrumbs_iff := newest_kept_iff hperm (keepsRecord_of_newest hrecords)
  have hannotations_iff := annotations_kept_iff
    (hjannotations ▸ readContext_annotations hmirrors hcontext (hrep.units .context)) hannotated
  have hextensions_iff := extensions_kept_iff (hjextensions ▸ readSettings_values hmirrors hcontext
      (hrep.units .settings)) hextended
  have hattachments_iff := attachments_kept_iff hlabels
  rw [← hjattachments, ← readAttachments_eq hmirrors hattachments
    (hrep.units .attachments), hjattachments] at hattachments_iff
  have hfits : ∀ args ∈ newestCrumbs (acceptedCalls calls m₀),
      (shownCrumb args).isSome ↔ args.timestampNs ≠ 0 ∧
        FitsField breadcrumbFileLen args.file ∧ FitsField breadcrumbMessageLen args.message := by
    intro args hargs
    obtain ⟨slot, -, hmem⟩ := mem_flatMap.mp hargs
    obtain ⟨hfile, hmessage⟩ := hrecords slot args (mem_of_mem_drop hmem)
    rw [shownCrumb_isSome_iff, fitsField_iff hfile, fitsField_iff hmessage]
  constructor
  · intro hkept
    obtain ⟨hsome, hcounters⟩ := hcrumbs_iff.mp hkept.breadcrumbs
    exact ⟨(forall₂_congr hfits).mp hsome, hcounters,
      hannotations_iff.mp hkept.context, hextensions_iff.mp hkept.settings,
      hattachments_iff.mp hkept.attachments⟩
  · intro hfit
    exact ⟨hcrumbs_iff.mpr ⟨(forall₂_congr hfits).mpr hfit.breadcrumbs,
      hfit.counters⟩, hannotations_iff.mpr hfit.annotations, hextensions_iff.mpr hfit.extensions,
      hattachments_iff.mpr hfit.attachments⟩

/-! ## Texts that take their unit with them -/

/-- Sixteen letters of two bytes each: 32 bytes, of which 31 are kept. -/
def longKey : CString := some (Utf8.encode (replicate 16 'é'))

theorem longKey_spells : longKey.Spells (.ofList (replicate 16 'é')) := by
  rw [CString.Spells, String.toList_ofList]
  decide +kernel

theorem longKey_valid : longKey.Valid := by
  refine ⟨_, longKey_spells, ?_⟩
  intro c hc
  rw [String.toList_ofList] at hc
  rw [eq_of_mem_replicate hc]
  decide

/-- An over-long annotation key and an empty extension key. -/
def lossyCalls : List SdkCall := [.annotate longKey (some []), .setExtension (some []) (some [])]

theorem valid_empty : CString.Valid (some []) := ⟨"", rfl, by simp [Printable]⟩

theorem lossyCalls_valid : ∀ call ∈ lossyCalls, call.ValidTexts := by
  intro call hcall
  simp only [lossyCalls, mem_cons, not_mem_nil, or_false] at hcall
  rcases hcall with rfl | rfl
  · exact ⟨longKey_valid, valid_empty⟩
  · exact ⟨valid_empty, valid_empty⟩

/-- Both calls return 0, and the whole context and the whole extension are
gone. -/
theorem lossyCalls_lose_units :
    (∀ call ∈ lossyCalls, call.ValidTexts) ∧
    (runCalls lossyCalls createdMapping).1 = [0, 0] ∧ ∃ snapshot, (heldMapping (runCalls lossyCalls
      createdMapping).2).snapshotOwnedUntilWithPolicy none .all =
        .ok snapshot ∧ snapshot.readContext = none ∧ snapshot.readSettings = none := by
  obtain ⟨hstatus, hrep⟩ := runCalls_represents createdMapping_fresh.represents lossyCalls
  obtain ⟨⟨snapshot, hok⟩, hmirrors⟩ := hrep.snapshots (heldMapping_suspended _) .all
  have hmirrors := hmirrors none snapshot hok
  refine ⟨lossyCalls_valid, hstatus, snapshot, hok, ?_, ?_⟩
  · have hcontext := readContext_annotations hmirrors rfl (hrep.units .context)
    have hnone : (Journal.empty.runCalls lossyCalls).2.annotations.mapM
        (shownPair annotationKeyLen annotationValueLen) = none := by
      show [(longKey, some [])].mapM _ = none
      rfl
    rw [hnone, map_eq_none_iff] at hcontext
    exact hcontext
  · have hsettings := readSettings_values hmirrors rfl (hrep.units .settings) (cons_ne_nil _ _)
    have hnone : (Journal.empty.runCalls lossyCalls).2.extensions.mapM shownEntry = none := by
      show [(some [], some [])].mapM shownEntry = none
      rfl
    rw [hnone, map_eq_none_iff] at hsettings
    exact hsettings

theorem sdk_texts_kept_iff_lossyCalls : ∃ snapshot, (heldMapping (runCalls lossyCalls
      createdMapping).2).snapshotOwnedUntilWithPolicy none .all =
        .ok snapshot ∧
    (TextsKept (acceptedCalls lossyCalls createdMapping) snapshot ↔
      TextsFit (acceptedCalls lossyCalls createdMapping)) := by
  obtain ⟨j, hrep, -⟩ := runCalls_accepted createdMapping_fresh
  obtain ⟨snapshot, hok⟩ := (hrep.snapshots (heldMapping_suspended _) .all).1
  exact ⟨snapshot, hok, sdk_texts_kept_iff createdMapping_fresh lossyCalls_valid
    (heldMapping_suspended _) rfl rfl rfl hok⟩

end CrashMonitor.Shm
