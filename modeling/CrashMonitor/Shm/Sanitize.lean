import CrashMonitor.Shm.Copy

/-!
# Shared memory — what sanitizing does to each byte

`sanitize_publications` works on one address window after another: header
words, breadcrumbs, the three middle units, screenshots, heartbeat. Each
stage is described byte by byte inside its window and framed outside it.
The deadline only decides whether the work is finished
(`runs_sanitizePublications`), never what it computes.
-/

namespace CrashMonitor.Shm

open Bytes Fallible List
variable {bytes bytes' : Mem} {offset len width value : Nat}
  {policy : ShmSnapshotPolicy} {L : LiveMapping} {deadline : Option Nat}

/-! ## Writes into the owned buffer -/

theorem zeroOwnedRange_inside {a} (hfit : offset + len ≤ shmTotalSize)
    (h1 : offset ≤ a) (h2 : a < offset + len) : zeroOwnedRange bytes offset len a = 0 := by
  rw [zeroOwnedRange, if_pos hfit]
  exact if_pos ⟨h1, h2⟩

theorem zeroOwnedRange_outside {a} (h : a < offset ∨ offset + len ≤ a) :
    zeroOwnedRange bytes offset len a = bytes a := by
  unfold zeroOwnedRange
  split
  · exact if_neg (by omega)
  · rfl

theorem writeOwned_outside {a} (h : a < offset ∨ offset + width ≤ a) :
    writeOwned width bytes offset value a = bytes a := by
  unfold writeOwned
  split
  · exact Mem.store_outside h
  · rfl

/-- What a word written into the buffer leaves in one of its bytes does not
depend on the buffer. -/
theorem writeOwned_inside {a} (hfit : offset + width ≤ shmTotalSize) (h1 : offset ≤ a)
    (h2 : a < offset + width) :
    writeOwned width bytes offset value a = bytes'.store offset width value a := by
  obtain ⟨k, rfl⟩ := Nat.exists_eq_add_of_le h1
  have hk : k < (toLE width value).length := by rw [toLE_length]; omega
  rw [writeOwned, if_pos hfit, Mem.store, Mem.store, Mem.write_inside hk, Mem.write_inside hk]

theorem writeOwned_load {m : Mem} {a} (hfit : offset + width ≤ shmTotalSize)
    (h1 : offset ≤ a) (h2 : a < offset + width) :
    writeOwned width bytes offset (m.load offset width) a = m a := by
  rw [writeOwned_inside hfit h1 h2]
  exact Mem.store_load_inside (m := m) h1 h2

/-- The buffer's writes act byte by byte. -/
theorem zeroOwnedRange_local {a} (h : bytes a = bytes' a) :
    zeroOwnedRange bytes offset len a = zeroOwnedRange bytes' offset len a := by
  unfold zeroOwnedRange
  split
  · simp only [h]
  · exact h

theorem writeOwned_local {a} (h : bytes a = bytes' a) :
    writeOwned width bytes offset value a = writeOwned width bytes' offset value a := by
  unfold writeOwned
  split
  · simp only [Mem.store, Mem.write, h]
  · exact h

theorem writeOwned_zero {a : Nat} (hfit : offset + width ≤ shmTotalSize) (h1 : offset ≤ a)
    (h2 : a < offset + width) : writeOwned width bytes offset 0 a = 0 := by
  have hzero : Mem.load (fun _ => 0) offset width = 0 := Mem.load_eq_zero fun _ _ _ => rfl
  rw [← hzero]
  exact writeOwned_load hfit h1 h2

/-- A zero byte stays zero. -/
theorem zeroOwnedRange_of_zero {a} (h : bytes a = 0) :
    zeroOwnedRange bytes offset len a = 0 := by
  unfold zeroOwnedRange
  split
  · simp only [h, ite_self]
  · exact h

/-! ## Loops over units -/

section Loop

variable {f : Sanitized → Nat → Sanitized} {region : Nat → Nat → Prop}
variable {l : List Nat} {a i : Nat}

theorem foldl_bytes_outside (hout : ∀ s i a, ¬ region i a → (f s i).bytes a = s.bytes a)
    (h : ∀ i ∈ l, ¬ region i a) {s} : (l.foldl f s).bytes a = s.bytes a := by
  induction l generalizing s with
  | nil => rfl
  | cons j l ih => rw [foldl_cons, ih (fun i hi => h i (by simp [hi])), hout s j a (h j (by simp))]

/-- With disjoint regions a byte sees only the round of its own region. -/
theorem foldl_bytes_inside (hout : ∀ s i a, ¬ region i a → (f s i).bytes a = s.bytes a)
    (hlocal : ∀ s s' i a, s.bytes a = s'.bytes a → (f s i).bytes a = (f s' i).bytes a)
    (hdisj : ∀ i ∈ l, ∀ j ∈ l, region i a → region j a → i = j)
    (hnodup : l.Nodup) (hi : i ∈ l) (ha : region i a) (s : Sanitized) :
    (l.foldl f s).bytes a = (f s i).bytes a := by
  induction l generalizing s with
  | nil => cases hi
  | cons j l ih =>
    rw [nodup_cons] at hnodup
    rw [foldl_cons]
    rcases mem_cons.mp hi with rfl | hmem
    · refine foldl_bytes_outside hout (fun k hk hka => hnodup.1 ?_)
      rwa [hdisj i (by simp) k (by simp [hk]) ha hka]
    have hne : ¬ region j a := fun hja => hnodup.1 (hdisj j (by simp) i hi hja ha ▸ hmem)
    rw [ih (fun i hi j hj => hdisj i (by simp [hi]) j (by simp [hj])) hnodup.2 hmem]
    exact hlocal _ _ _ _ (hout s j a hne)

theorem foldl_issues {found} (h : ∀ s i, (f s i).issues = s.issues ++ found i) {s} :
    (l.foldl f s).issues = s.issues ++ l.flatMap found := by
  induction l generalizing s with
  | nil => simp
  | cons i l ih => rw [foldl_cons, ih, h, flatMap_cons, append_assoc]

end Loop

/-! ## Breadcrumbs -/

variable {before after : LivePublicationState} {s : Sanitized} {a i : Nat}

/-- The bytes of ring `i`, its generation included. -/
def InRing (i a : Nat) : Prop := ringOffset i ≤ a ∧ a < ringOffset i + crumbRingSize

theorem inRing_unique {i j a} (hi : InRing i a) (hj : InRing j a) : i = j := by
  simp [InRing] at hi hj
  omega

/-- Whether `sanitize_breadcrumbs` accepts the registry. -/
def registryIsStable (before after : LivePublicationState) : Bool :=
  stableGeneration before.registryGeneration after.registryGeneration &&
    before.ringCount == after.ringCount

theorem sanitizeRing_outside (s : Sanitized) (i a : Nat) (h : ¬ InRing i a) :
    (sanitizeRing before after s i).bytes a = s.bytes a := by
  simp only [InRing, crumbRingSize] at h
  unfold sanitizeRing
  dsimp only
  split
  · dsimp only
    refine writeOwned_outside ?_
    simp only [ringGenerationOffset]
    omega
  · dsimp only
    refine zeroOwnedRange_outside ?_
    simp only [crumbRingSize]
    omega

theorem sanitizeRing_local (s s' : Sanitized) (i a : Nat) (h : s.bytes a = s'.bytes a) :
    (sanitizeRing before after s i).bytes a = (sanitizeRing before after s' i).bytes a := by
  unfold sanitizeRing
  dsimp only
  split
  · dsimp only
    exact writeOwned_local h
  · dsimp only
    exact zeroOwnedRange_local h

theorem sanitizeBreadcrumbs_outside (s : Sanitized)
    (h : a < section2Offset ∨ section2Offset + section2Size ≤ a) :
    (sanitizeBreadcrumbs before after s).bytes a = s.bytes a := by
  unfold sanitizeBreadcrumbs
  split
  · refine (foldl_bytes_outside sanitizeRing_outside ?_).trans ?_
    · intro i hi hin
      simp [mem_range, InRing] at hi hin h
      omega
    dsimp only
    refine writeOwned_outside ?_
    simp at h ⊢
    omega
  · exact zeroOwnedRange_outside h

theorem sanitizeBreadcrumbs_of_unstable (hunstable : registryIsStable before after = false)
    (s : Sanitized) (h1 : section2Offset ≤ a) (h2 : a < section2Offset + section2Size) :
    (sanitizeBreadcrumbs before after s).bytes a = 0 := by
  rw [sanitizeBreadcrumbs, if_neg (by simpa [registryIsStable] using hunstable)]
  exact zeroOwnedRange_inside (by decide) h1 h2

theorem sanitizeBreadcrumbs_ring (hstable : registryIsStable before after = true)
    (s : Sanitized) (hi : i < 8) (ha : InRing i a) :
    (sanitizeBreadcrumbs before after s).bytes a = (sanitizeRing before after s i).bytes a := by
  rw [sanitizeBreadcrumbs, if_pos (by simpa [registryIsStable] using hstable),
    foldl_bytes_inside (i := i) sanitizeRing_outside sanitizeRing_local
      (fun _ _ _ _ => inRing_unique) nodup_range (mem_range.mpr (by exact hi)) ha]
  refine sanitizeRing_local _ _ i a ?_
  dsimp only
  refine writeOwned_outside ?_
  simp [InRing] at ha ⊢
  omega

/-- Behind the rings: the ring count and padding. -/
theorem sanitizeBreadcrumbs_count (hstable : registryIsStable before after = true) (s : Sanitized)
    (h1 : ringCountOffset ≤ a) :
    (sanitizeBreadcrumbs before after s).bytes a =
      writeOwnedU32 s.bytes ringCountOffset after.ringCount a := by
  rw [sanitizeBreadcrumbs, if_pos (by simpa [registryIsStable] using hstable)]
  refine foldl_bytes_outside sanitizeRing_outside (fun i hi hin => ?_)
  simp [mem_range, InRing] at hi hin h1
  omega

/-- The issue a ring raises. -/
def ringIssue (before after : LivePublicationState) (i : Nat) : List ShmConsistencyIssue :=
  if stableGeneration (before.ringGenerations.getD i 0) (after.ringGenerations.getD i 0) then []
  else [.breadcrumbRing i (before.ringGenerations.getD i 0) (after.ringGenerations.getD i 0)]

/-- The issues of the breadcrumb section: the registry alone, or its rings. -/
def breadcrumbIssues (before after : LivePublicationState) : List ShmConsistencyIssue :=
  if registryIsStable before after then
    (List.range crumbMaxThreads).flatMap (ringIssue before after)
  else [.breadcrumbRegistry before.registryGeneration after.registryGeneration
    before.ringCount after.ringCount]

theorem sanitizeBreadcrumbs_issues (s : Sanitized) :
    (sanitizeBreadcrumbs before after s).issues = s.issues ++ breadcrumbIssues before after := by
  unfold sanitizeBreadcrumbs breadcrumbIssues registryIsStable
  split
  · refine foldl_issues (fun s i => ?_)
    unfold sanitizeRing ringIssue
    dsimp only
    split
    · simp
    · rfl
  · rfl

/-! ## Context, settings, attachments -/

section Unit

variable {enabled : Bool} {generationBefore generationAfter offset len : Nat}
variable {issue : Nat → Nat → ShmConsistencyIssue}

theorem sanitizeUnit_outside (s : Sanitized) (h : a < offset ∨ offset + len ≤ a) :
    (sanitizeUnit enabled generationBefore generationAfter offset len issue
      s).bytes a = s.bytes a := by
  unfold sanitizeUnit
  split
  · exact zeroOwnedRange_outside h
  · rfl

theorem sanitizeUnit_of_stable (s : Sanitized)
    (h : enabled = false ∨ stableGeneration generationBefore generationAfter = true) :
    sanitizeUnit enabled generationBefore generationAfter offset len issue s = s := by
  rw [sanitizeUnit, if_neg]
  rcases h with h | h <;> simp [h]

theorem sanitizeUnit_of_unstable (s : Sanitized) (henabled : enabled = true)
    (h : stableGeneration generationBefore generationAfter = false)
    (hfit : offset + len ≤ shmTotalSize) (h1 : offset ≤ a) (h2 : a < offset + len) :
    (sanitizeUnit enabled generationBefore generationAfter offset len issue s).bytes a = 0 := by
  rw [sanitizeUnit, if_pos (by simp [henabled, h])]
  exact zeroOwnedRange_inside hfit h1 h2

theorem sanitizeUnit_issues (s : Sanitized) :
    (sanitizeUnit enabled generationBefore generationAfter offset len issue
      s).issues = s.issues ++
        if enabled && !stableGeneration generationBefore generationAfter then
          [issue generationBefore generationAfter] else [] := by
  unfold sanitizeUnit
  split
  · rfl
  · simp

end Unit

section

variable (s : Sanitized)

theorem sanitizeContextSettingsAttachments_outside (h : a < contextOffset ∨ section4Offset ≤ a) :
    (sanitizeContextSettingsAttachments before after policy s).bytes a = s.bytes a := by
  simp at h
  unfold sanitizeContextSettingsAttachments
  rw [sanitizeUnit_outside, sanitizeUnit_outside, sanitizeUnit_outside]
  all_goals
    simp
    omega

/-! ## Screenshots -/

/-- The bytes of screenshot slot `i`, its generation included. -/
def InSlot (i a : Nat) : Prop :=
  (screenshotGenerationsOffset + i * 4 ≤ a ∧
      a < screenshotGenerationsOffset + i * 4 + 4) ∨
    (screenshotTimestampsOffset + i * 8 ≤ a ∧
      a < screenshotTimestampsOffset + i * 8 + 8) ∨
    (screenshotTiersOffset + i * 4 ≤ a ∧
      a < screenshotTiersOffset + i * 4 + 4) ∨
    (screenshotDataOffset + i * screenshotBytesPerSlot ≤ a ∧
      a < screenshotDataOffset + i * screenshotBytesPerSlot + screenshotBytesPerSlot)

theorem sanitizeScreenshot_outside (i a : Nat) (h : ¬ InSlot i a) :
    (sanitizeScreenshot before after s i).bytes a = s.bytes a := by
  simp only [InSlot, not_or] at h
  unfold sanitizeScreenshot
  dsimp only
  split
  · dsimp only
    exact writeOwned_outside (by omega)
  dsimp only
  rw [zeroOwnedRange_outside (by omega), zeroOwnedRange_outside (by omega),
    zeroOwnedRange_outside (by omega)]
  exact writeOwned_outside (by omega)

theorem sanitizeScreenshot_of_unstable (hi : i < 96)
    (h : stableGeneration (before.screenshotGenerations.getD i 0)
      (after.screenshotGenerations.getD i 0) = false) (ha : InSlot i a) :
    (sanitizeScreenshot before after s i).bytes a = 0 := by
  unfold sanitizeScreenshot
  rw [if_neg (by rw [h]; simp)]
  dsimp only
  rcases ha with ⟨h1, h2⟩ | ⟨h1, h2⟩ | ⟨h1, h2⟩ | ⟨h1, h2⟩
  · refine zeroOwnedRange_of_zero (zeroOwnedRange_of_zero
      (zeroOwnedRange_of_zero (writeOwned_zero ?_ h1 h2)))
    simp
    omega
  · refine zeroOwnedRange_of_zero (zeroOwnedRange_of_zero (zeroOwnedRange_inside ?_ h1 h2))
    simp
    omega
  · refine zeroOwnedRange_of_zero (zeroOwnedRange_inside ?_ h1 h2)
    simp
    omega
  · refine zeroOwnedRange_inside ?_ h1 h2
    simp
    omega

theorem sanitizeScreenshot_local (s' : Sanitized) (i a : Nat) (h : s.bytes a = s'.bytes a) :
    (sanitizeScreenshot before after s i).bytes a =
      (sanitizeScreenshot before after s' i).bytes a := by
  unfold sanitizeScreenshot
  dsimp only
  split
  · dsimp only
    exact writeOwned_local h
  · dsimp only
    exact zeroOwnedRange_local (zeroOwnedRange_local (zeroOwnedRange_local (writeOwned_local h)))

theorem inSlot_unique {i j a} (hi : i < 96) (hj : j < 96)
    (h1 : InSlot i a) (h2 : InSlot j a) : i = j := by
  simp [InSlot] at h1 h2
  omega

/-- `sanitize_screenshots` without its deadline. -/
def sanitizedScreenshots (before after : LivePublicationState) (s : Sanitized) : Sanitized :=
  (List.range screenshotSlots).foldl (sanitizeScreenshot before after) s

theorem sanitizedScreenshots_outside (h : a < section4Offset ∨ footerOffset ≤ a) :
    (sanitizedScreenshots before after s).bytes a = s.bytes a := by
  refine foldl_bytes_outside sanitizeScreenshot_outside (fun i hi hin => ?_)
  simp [mem_range, InSlot] at hi hin h
  omega

theorem sanitizedScreenshots_slot (hi : i < 96) (ha : InSlot i a) :
    (sanitizedScreenshots before after s).bytes a = (sanitizeScreenshot before after s i).bytes a :=
  foldl_bytes_inside sanitizeScreenshot_outside sanitizeScreenshot_local
    (fun _ hi _ hj => inSlot_unique (mem_range.mp hi)
      (mem_range.mp hj)) nodup_range (mem_range.mpr hi) ha s

/-- The issue a screenshot slot raises. -/
def screenshotIssue (before after : LivePublicationState) (i : Nat) : List ShmConsistencyIssue :=
  if stableGeneration (before.screenshotGenerations.getD i 0)
      (after.screenshotGenerations.getD i 0) then []
  else [.screenshotSlot i (before.screenshotGenerations.getD i 0)
    (after.screenshotGenerations.getD i 0)]

theorem sanitizedScreenshots_issues :
    (sanitizedScreenshots before after s).issues = s.issues ++
      (List.range screenshotSlots).flatMap (screenshotIssue before after) := by
  refine foldl_issues (fun s i => ?_)
  unfold sanitizeScreenshot screenshotIssue
  dsimp only
  split
  · simp
  · rfl

end

/-! ## All stages -/

theorem writeWhen_outside {enabled} (h : a < offset ∨ offset + 4 ≤ a) :
    writeWhen enabled bytes offset value a = bytes a := by
  unfold writeWhen
  split
  · exact writeOwned_outside h
  · rfl

/-- `sanitize_publications` without its deadline checks. -/
def sanitizedPublications (before after : LivePublicationState)
    (policy : ShmSnapshotPolicy) (heartbeat : Nat) (bytes : Mem) : Sanitized :=
  let s : Sanitized := ⟨writeHeaderWords after policy bytes, []⟩
  let s := if policy.breadcrumbs then sanitizeBreadcrumbs before after s else s
  let s := sanitizeContextSettingsAttachments before after policy s
  let s := if policy.screenshots then sanitizedScreenshots before after s else s
  if policy.context then
    { s with bytes := writeOwnedU64 s.bytes heartbeatOffset heartbeat } else s

theorem runs_sanitizeScreenshots {s} :
    Runs (OnlyDeadline deadline) (L.sanitizeScreenshots before after deadline s)
      (· = sanitizedScreenshots before after s) := by
  refine .bind (.foldlM (fun done s' => s' = done.foldl (sanitizeScreenshot before after) s)
    rfl ?_) ?_
  · rintro done i rest s' - rfl
    refine .bind runs_checkSnapshotDeadline fun _ _ => .pure ?_
    rw [foldl_append]
    rfl
  · rintro s' rfl
    exact .bind runs_checkSnapshotDeadline fun _ _ => .pure rfl

/-- The deadline decides whether sanitizing finishes, not what it computes. -/
theorem runs_sanitizePublications {heartbeat bytes} : Runs (OnlyDeadline deadline)
      (L.sanitizePublications before after deadline policy heartbeat bytes)
      (· = sanitizedPublications before after policy heartbeat bytes) := by
  unfold LiveMapping.sanitizePublications sanitizedPublications
  dsimp only
  generalize (⟨writeHeaderWords after policy bytes, []⟩ : Sanitized) = s
  have hcrumbs : Runs (OnlyDeadline deadline) (if policy.breadcrumbs then do
        L.checkSnapshotDeadline deadline
        pure (sanitizeBreadcrumbs before after s) else pure s)
      (· = if policy.breadcrumbs then sanitizeBreadcrumbs before after s
        else s) := by
    split
    · exact .bind runs_checkSnapshotDeadline fun _ _ => .pure rfl
    · exact .pure rfl
  refine .bind hcrumbs ?_
  rintro _ rfl
  refine .bind runs_checkSnapshotDeadline fun _ _ => ?_
  generalize sanitizeContextSettingsAttachments before after policy _ = s'
  have hshots : Runs (OnlyDeadline deadline) (if policy.screenshots then do
        L.checkSnapshotDeadline deadline
        L.sanitizeScreenshots before after deadline s' else pure s')
      (· = if policy.screenshots then sanitizedScreenshots before after s'
        else s') := by
    split
    · exact .bind runs_checkSnapshotDeadline fun _ _ => runs_sanitizeScreenshots
    · exact .pure rfl
  refine .bind hshots ?_
  rintro _ rfl
  exact .pure rfl

/-! ## The snapshot -/

/-- The snapshot that observations determine. -/
def snapshotOf (policy : ShmSnapshotPolicy) (seen : Observation) :
    Except ShmSnapshotError OwnedShmSnapshot :=
  let s := sanitizedPublications seen.before seen.after policy seen.heartbeat seen.bytes
  OwnedShmSnapshot.fromOwnedBytes s.bytes shmTotalSize s.issues

/-- Why a snapshot may fail once the mapping's shape is accepted. -/
def SnapshotFails (L : LiveMapping) (deadline : Option Nat)
    (policy : ShmSnapshotPolicy) (e : ShmSnapshotError) : Prop :=
  OnlyDeadline deadline e ∨ L.reserves = false ∨
    ∃ seen, Observed L policy seen ∧ snapshotOf policy seen = .error e

/-- A snapshot that does not fail is the one its observations determine. -/
theorem runs_takeSnapshot (hlen : shmTotalSize ≤ L.len) :
    Runs (SnapshotFails L deadline policy) (L.takeSnapshot deadline policy)
      fun snapshot => ∃ seen, Observed L policy seen ∧ snapshotOf policy seen = .ok snapshot := by
  have hcheck : Runs (SnapshotFails L deadline policy)
      (L.checkSnapshotDeadline deadline) fun _ => True :=
    runs_checkSnapshotDeadline.weaken fun _ => .inl
  refine .bind hcheck fun _ _ => ?_
  refine .ite (fun h t => ?_) fun _ => ?_
  · exact .inr ⟨_, rfl, .inr (.inl h)⟩
  refine .bind ((runs_observeAll hlen).weaken fun _ => .inl)
    fun seen hseen => .bind hcheck fun _ _ => ?_
  refine .bind ((runs_sanitizePublications).weaken fun _ => .inl) fun s hs => ?_
  subst hs
  refine .bind (.lift (fun snapshot hsnapshot => ?_) fun e he => ?_)
    fun snapshot hsnapshot => .bind hcheck fun _ _ => .pure hsnapshot
  · exact ⟨seen, hseen, hsnapshot⟩
  · exact .inr (.inr ⟨seen, hseen, he⟩)

theorem heldMapping_shape (m : Mem) :
    validateMappingShape (heldMapping m).address (heldMapping m).len = .ok () := by
  have hshape : validateMappingShape 0 shmTotalSize = .ok () := by decide +kernel
  exact hshape

theorem total_le_of_shape {address mapped}
    (h : validateMappingShape address mapped = .ok ()) : shmTotalSize ≤ mapped := by
  by_contra hlt
  rw [validateMappingShape, if_pos (by omega)] at h
  cases h

end CrashMonitor.Shm
