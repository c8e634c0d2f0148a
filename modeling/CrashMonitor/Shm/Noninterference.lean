import CrashMonitor.Shm.Reader
import CrashMonitor.Shm.Sanitize

/-!
# Shared memory — a denied section leaves no trace

Two mappings that show the same under a policy are indistinguishable to a
snapshot under that policy. The proof follows the source: every observation
is made at visible addresses, so each function computes the same for both
mappings, and the results are equal as computations, errors and deadlines
included. Nothing about what the snapshot contains is needed for this.

The mappings may change while they are read; they only have to agree at
every moment.
-/

namespace CrashMonitor.Shm

open Bytes Fallible List LiveMapping

/-- The two mappings show the same under the policy, at every moment, under
the same clock. -/
structure Agree (policy : ShmSnapshotPolicy) (L₁ L₂ : LiveMapping) : Prop where
  live : ∀ t a, policy.Visible a → L₁.live t a = L₂.live t a
  now : ∀ t, L₁.now t = L₂.now t
  reserves : L₁.reserves = L₂.reserves
  len₁ : shmTotalSize ≤ L₁.len
  len₂ : shmTotalSize ≤ L₂.len

variable {policy : ShmSnapshotPolicy} {L₁ L₂ : LiveMapping}
variable {deadline : Option Nat} {before after : LivePublicationState}

namespace Agree

section

variable (h : Agree policy L₁ L₂)

include h

theorem checkSnapshotDeadline :
    L₁.checkSnapshotDeadline deadline = L₂.checkSnapshotDeadline deadline := by
  have hclock : L₁.readClock = L₂.readClock := by
    funext t
    simp only [readClock, h.now t]
  cases deadline with
  | none => rfl
  | some d => simp only [checkSnapshotDeadline, hclock]

theorem loadAtomicAt {width offset} (hfit : offset + width ≤ shmTotalSize)
    (hvisible : ∀ a, offset ≤ a → a < offset + width → policy.Visible a) :
    L₁.loadAtomicAt width offset = L₂.loadAtomicAt width offset := by
  have hobserve : L₁.observe offset width = L₂.observe offset width := by
    funext t
    have hload : (L₁.live t).load offset width = (L₂.live t).load offset width :=
      Mem.load_congr fun a h1 h2 => h.live t a (hvisible a h1 h2)
    simp only [observe, hload]
  have h1 : ¬ offset + width > L₁.len := Nat.not_lt.mpr (Nat.le_trans hfit h.len₁)
  have h2 : ¬ offset + width > L₂.len := Nat.not_lt.mpr (Nat.le_trans hfit h.len₂)
  simp only [LiveMapping.loadAtomicAt, h1, h2, hobserve]

theorem loadU32 {enabled offset} (hfit : offset + 4 ≤ shmTotalSize)
    (hvisible : enabled = true → ∀ a, offset ≤ a → a < offset + 4 → policy.Visible a) :
    L₁.loadU32 enabled offset = L₂.loadU32 enabled offset := by
  cases enabled with
  | false => rfl
  | true =>
    simp only [LiveMapping.loadU32, LiveMapping.loadAtomicU32At, h.loadAtomicAt hfit (hvisible rfl)]

/-- A word of the list is loaded alike if the policy permits it. -/
theorem loadWord {word} (hword : word ∈ liveAtomicWords)
    (hallow : policy.allowsAtomic word.offset = true) :
    L₁.loadAtomicAt word.width word.offset = L₂.loadAtomicAt word.width word.offset :=
  h.loadAtomicAt (LiveAtomicWord.fits hword).1 fun _ h1 h2 =>
    (visible_iff_of_word hword ⟨h1, h2⟩).mpr hallow

theorem loadPublicationState : L₁.loadPublicationState policy = L₂.loadPublicationState policy := by
  have hword : ∀ (offset : Nat) (enabled : Bool), (⟨offset, 4⟩ : LiveAtomicWord) ∈ liveAtomicWords →
      (enabled = true → policy.allowsAtomic offset = true) →
      L₁.loadU32 enabled offset = L₂.loadU32 enabled offset := by
    intro offset enabled hmem hallow
    refine h.loadU32 (LiveAtomicWord.fits hmem).1 fun henabled a h1 h2 => ?_
    exact (visible_iff_of_word hmem ⟨h1, h2⟩).mpr (hallow henabled)
  have hrings : (List.range crumbMaxThreads).mapM (fun index =>
        L₁.loadU32 policy.breadcrumbs (ringOffset index + ringGenerationOffset)) =
      (List.range crumbMaxThreads).mapM fun index => L₂.loadU32 policy.breadcrumbs
          (ringOffset index + ringGenerationOffset) := by
    refine mapM_congr fun i hi => ?_
    rw [mem_range] at hi
    refine hword _ _ (mem_liveAtomicWords.mpr ?_) fun henabled => ?_
    · exact .inr (.inr (.inr (.inr (.inr (.inl ⟨i, hi, rfl⟩)))))
    · rw [allowsAtomic_ring hi, henabled]
  have hshots : (List.range screenshotSlots).mapM (fun index =>
        L₁.loadU32 policy.screenshots (screenshotGenerationsOffset + index * 4)) =
      (List.range screenshotSlots).mapM fun index => L₂.loadU32 policy.screenshots
          (screenshotGenerationsOffset + index * 4) := by
    refine mapM_congr fun i hi => ?_
    rw [mem_range] at hi
    refine hword _ _ (mem_liveAtomicWords.mpr ?_) fun henabled => ?_
    · exact .inr (.inr (.inr (.inr (.inr (.inr (.inr (.inr ⟨i, hi, rfl⟩)))))))
    · rw [allowsAtomic_screenshot hi, henabled]
  unfold LiveMapping.loadPublicationState
  rw [hrings, hshots, hword registryGenerationOffset policy.breadcrumbs (by decide) id,
    hword ringCountOffset policy.breadcrumbs (by decide) id,
    hword contextGenerationOffset policy.context (by decide) id,
    hword settingsGenerationOffset policy.context (by decide) id,
    hword attachmentsGenerationOffset policy.attachments (by decide) id,
    hword producerReadyOffset true (by decide) id]

/-! ## The copy -/

theorem copyNonAtomicRange (bytes : Mem) {copied stop}
    (hvisible : ∀ a, copied ≤ a → a < stop → policy.Visible a) :
    L₁.copyNonAtomicRange deadline bytes copied stop =
      L₂.copyNonAtomicRange deadline bytes copied stop := by
  induction hn : stop - copied using Nat.strongRecOn generalizing bytes copied with
  | ind n ih =>
    conv_lhs => rw [LiveMapping.copyNonAtomicRange]
    conv_rhs => rw [LiveMapping.copyNonAtomicRange]
    by_cases hlt : copied < stop
    · have hchunk : ∀ {bytes : Mem} {len : Nat}, copied + len ≤ stop →
          L₁.copyBytes bytes copied len = L₂.copyBytes bytes copied len := by
        intro bytes len hle
        funext t
        simp only [copyBytes, Except.ok.injEq, Prod.mk.injEq, and_true]
        funext a
        by_cases ha : copied ≤ a ∧ a < copied + len
        · rw [if_pos ha, if_pos ha]
          exact h.live _ a (hvisible a ha.1 (by omega))
        · rw [if_neg ha, if_neg ha]
      rw [if_pos hlt, if_pos hlt, h.checkSnapshotDeadline]
      refine bind_congr fun _ => ?_
      dsimp only
      rw [hchunk (show copied + min (stop - copied) snapshotCopyChunkSize ≤ stop by omega)]
      refine bind_congr fun bytes' => ?_
      refine ih _ ?_ bytes' (fun a h1 h2 => hvisible a (by omega) h2) rfl
      simp only [snapshotCopyChunkSize]
      omega
    · rw [if_neg hlt, if_neg hlt]

/-- A range is copied alike if its bytes in allowed sections are visible. -/
theorem copySelectedNonAtomicRange (bytes : Mem) {start stop}
    (hvisible : ∀ a, start ≤ a → a < stop → InSections policy.sections a → policy.Visible a) :
    L₁.copySelectedNonAtomicRange deadline policy bytes start stop =
      L₂.copySelectedNonAtomicRange deadline policy bytes start stop := by
  refine foldlM_congr (fun b part hpart => ?_) bytes
  unfold copySection
  by_cases hcopy : part.2.2 = true ∧ max start part.1 < min stop part.2.1
  · rw [if_pos hcopy, if_pos hcopy]
    refine h.copyNonAtomicRange b fun a h1 h2 => ?_
    exact hvisible a (by omega) (by omega) ⟨part, hpart, hcopy.1, by omega, by omega⟩
  · rw [if_neg hcopy, if_neg hcopy]

/-- The words from `word` on and the end of the mapping, with the cursor right
behind the words before. -/
theorem copyRest {done todo} (hwords : liveAtomicWords = done ++ todo)
    {cursor} (hbound : ∀ v ∈ done, v.offset + v.width ≤ cursor) (bytes : Mem) :
    (todo.foldlM (L₁.copyWord deadline policy) (bytes, cursor) >>= fun s =>
        L₁.copySelectedNonAtomicRange deadline policy s.1 s.2 shmTotalSize) =
      (todo.foldlM (L₂.copyWord deadline policy) (bytes, cursor) >>= fun s =>
        L₂.copySelectedNonAtomicRange deadline policy s.1 s.2 shmTotalSize) := by
  induction todo generalizing done cursor bytes with
  | nil =>
    rw [append_nil] at hwords
    refine h.copySelectedNonAtomicRange bytes fun a h1 h2 hin => ?_
    rw [← readable_iff_visible, readable_of_gap]
    · exact hin
    rintro v hv ⟨-, hend⟩
    have := hbound v (hwords ▸ hv)
    omega
  | cons word rest ih =>
    have hmem : word ∈ liveAtomicWords := by rw [hwords]; simp
    have hgap : ∀ bytes, L₁.copySelectedNonAtomicRange deadline policy bytes
          cursor word.offset = L₂.copySelectedNonAtomicRange deadline policy bytes cursor
          word.offset := by
      intro bytes
      refine h.copySelectedNonAtomicRange bytes fun a h1 h2 hin => ?_
      rw [← readable_iff_visible, readable_of_gap]
      · exact hin
      · exact not_holds_of_gap hwords (fun v hv => Nat.le_trans (hbound v hv) h1) h2
    have hatomic : ∀ bytes, (if policy.allowsAtomic word.offset then
          L₁.copyAtomicWord bytes word else pure bytes) =
        if policy.allowsAtomic word.offset then
          L₂.copyAtomicWord bytes word else pure bytes := by
      intro bytes
      by_cases hallow : policy.allowsAtomic word.offset = true
      · rw [if_pos hallow, if_pos hallow, copyAtomicWord, copyAtomicWord, h.loadWord hmem hallow]
      · rw [if_neg hallow, if_neg hallow]
    rw [foldlM_cons, foldlM_cons]
    simp only [copyWord, bind_assoc, pure_bind, hgap, hatomic, h.checkSnapshotDeadline]
    refine bind_congr fun _ => bind_congr fun _ => bind_congr fun bytes' => ?_
    refine @ih (done ++ [word]) (by simp [hwords]) _ ?_ bytes'
    intro v hv
    rcases mem_append.mp hv with hv | hv
    · have := end_le_of_before hwords hv
      omega
    · rw [mem_singleton.mp hv]

theorem copyAll : L₁.copyAll deadline policy = L₂.copyAll deadline policy :=
  @copyRest _ _ _ _ h [] _ rfl _ (by simp) _

/-! ## The snapshot -/

theorem observeAll : L₁.observeAll deadline policy = L₂.observeAll deadline policy := by
  have hbeat : (if policy.context then do
        let value ← L₁.loadAtomicU64At heartbeatOffset
        pure (value.getD 0) else pure 0) =
      (if policy.context then do
        let value ← L₂.loadAtomicU64At heartbeatOffset
        pure (value.getD 0) else pure 0) := by
    by_cases hcontext : policy.context = true
    · rw [if_pos hcontext, if_pos hcontext, loadAtomicU64At,
        loadAtomicU64At, @loadWord _ _ _ h ⟨heartbeatOffset, 8⟩ (by decide) hcontext]
    · rw [if_neg hcontext, if_neg hcontext]
  unfold LiveMapping.observeAll
  rw [h.loadPublicationState, h.copyAll, hbeat]

theorem sanitizePublications :
    L₁.sanitizePublications before after deadline policy =
      L₂.sanitizePublications before after deadline policy := by
  funext heartbeat bytes
  simp only [LiveMapping.sanitizePublications,
    LiveMapping.sanitizeScreenshots, h.checkSnapshotDeadline]

theorem takeSnapshot : L₁.takeSnapshot deadline policy = L₂.takeSnapshot deadline policy := by
  simp only [LiveMapping.takeSnapshot, h.checkSnapshotDeadline, h.reserves,
    h.observeAll, h.sanitizePublications]

end

end Agree

/-! ## Denied bytes -/

variable {a : Nat} {bytes : Mem}

theorem writeWhen_of_hidden {enabled offset value}
    (hvisible : enabled = true → ∀ b, offset ≤ b → b < offset + 4 → policy.Visible b)
    (ha : ¬ policy.Visible a) :
    writeWhen enabled bytes offset value a = bytes a := by
  cases enabled with
  | false => rfl
  | true =>
    refine writeWhen_outside ?_
    by_contra hin
    exact ha (hvisible rfl a (by omega) (by omega))

theorem writeHeaderWords_of_hidden (ha : ¬ policy.Visible a) :
    writeHeaderWords after policy bytes a = bytes a := by
  have hword : ∀ {offset : Nat} (bit : Bool), (⟨offset, 4⟩ : LiveAtomicWord) ∈ liveAtomicWords →
      (bit = true → policy.allowsAtomic offset = true) → ∀ (bytes : Mem) (value : Nat),
        writeWhen bit bytes offset value a = bytes a := by
    intro offset bit hmem hallow bytes value
    refine writeWhen_of_hidden (fun hbit b h1 h2 => ?_) ha
    exact (visible_iff_of_word hmem ⟨h1, h2⟩).mpr (hallow hbit)
  unfold writeHeaderWords
  rw [hword true (by decide) id, hword policy.attachments (by decide) id,
    hword policy.context (by decide) id, hword policy.context (by decide) id,
    hword policy.breadcrumbs (by decide) id]

theorem sanitizeUnit_of_zero {enabled generationBefore generationAfter offset len issue s}
    (h : s.bytes a = 0) :
    (sanitizeUnit enabled generationBefore generationAfter offset len issue s).bytes a = 0 := by
  unfold sanitizeUnit
  split
  · exact zeroOwnedRange_of_zero h
  · exact h

/-- Sanitizing leaves what is hidden at zero. -/
theorem sanitizedPublications_of_hidden {heartbeat}
    (ha : ¬ policy.Visible a) (hzero : bytes a = 0) :
    (sanitizedPublications before after policy heartbeat bytes).bytes a = 0 := by
  have hheader : writeHeaderWords after policy bytes a = 0 :=
    (writeHeaderWords_of_hidden ha).trans hzero
  unfold sanitizedPublications
  dsimp only
  generalize hs₁ : (if policy.breadcrumbs then sanitizeBreadcrumbs before after
    ⟨writeHeaderWords after policy bytes, []⟩ else
    ⟨writeHeaderWords after policy bytes, []⟩ : Sanitized) = s₁
  have h₁ : s₁.bytes a = 0 := by
    rw [← hs₁]
    split
    · rename_i hcrumbs
      rw [sanitizeBreadcrumbs_outside]
      · exact hheader
      · by_contra hin
        exact ha ((visible_breadcrumbs (.inr (by omega))).mpr hcrumbs)
    · exact hheader
  generalize hs₂ : sanitizeContextSettingsAttachments before after policy s₁ = s₂
  have h₂ : s₂.bytes a = 0 := by
    rw [← hs₂]
    exact sanitizeUnit_of_zero (sanitizeUnit_of_zero (sanitizeUnit_of_zero h₁))
  generalize hs₃ : (if policy.screenshots then
    sanitizedScreenshots before after s₂ else s₂) = s₃
  have h₃ : s₃.bytes a = 0 := by
    rw [← hs₃]
    split
    · rename_i hshots
      rw [sanitizedScreenshots_outside]
      · exact h₂
      · by_contra hin
        exact ha ((visible_screenshots (by omega)).mpr hshots)
    · exact h₂
  split
  · rename_i hcontext
    dsimp only
    refine (writeOwned_outside ?_).trans h₃
    by_contra hin
    refine ha ((visible_context (.inr ?_)).mpr hcontext)
    simp at hin ⊢
    omega
  · exact h₃

theorem fromOwnedBytes_bytes {issues len snapshot}
    (h : OwnedShmSnapshot.fromOwnedBytes bytes len issues = .ok snapshot) :
    snapshot.bytes = bytes := by
  unfold OwnedShmSnapshot.fromOwnedBytes at h
  dsimp only at h
  split at h
  · cases h
  · cases h
    rfl

/-- Whatever a snapshot returns, hidden bytes are zero in it. -/
theorem snapshot_hidden_zero {L : LiveMapping} {snapshot}
    (h : L.snapshotOwnedUntilWithPolicy deadline policy = .ok snapshot)
    (ha : ¬ policy.Visible a) : snapshot.bytes a = 0 := by
  unfold snapshotOwnedUntilWithPolicy at h
  split at h
  · cases h
  rename_i hshape
  have hruns : Runs (SnapshotFails L deadline policy) (L.takeSnapshot deadline policy) _ :=
    runs_takeSnapshot (total_le_of_shape hshape)
  rcases hruns.run'_eq 0 with ⟨snapshot', hrun, seen, hseen, hof⟩ | ⟨e, hrun, -⟩
  · rw [h] at hrun
    cases hrun
    rw [fromOwnedBytes_bytes hof]
    refine sanitizedPublications_of_hidden ha ?_
    exact (hseen.bytes a).2 (mt readable_iff_visible.mp ha)
  · rw [h] at hrun
    cases hrun

/-- **Noninterference.** Mappings of valid shape that agree on what the policy
shows give the same snapshot, error or not, and so the same values from
every reader function; and what the policy hides is zero in it. -/
theorem snapshot_noninterference (policy : ShmSnapshotPolicy) (deadline : Option Nat)
    (L₁ L₂ : LiveMapping) (hshape₁ : validateMappingShape L₁.address L₁.len = .ok ())
    (hshape₂ : validateMappingShape L₂.address L₂.len = .ok ())
    (hlive : ∀ t a, policy.Visible a → L₁.live t a = L₂.live t a) (hnow : ∀ t, L₁.now t = L₂.now t)
    (hreserves : L₁.reserves = L₂.reserves) :
    L₁.snapshotOwnedUntilWithPolicy deadline policy =
        L₂.snapshotOwnedUntilWithPolicy deadline policy ∧
      (∀ s₁ s₂, L₁.snapshotOwnedUntilWithPolicy deadline policy = .ok s₁ →
        L₂.snapshotOwnedUntilWithPolicy deadline policy = .ok s₂ →
        s₁.bytes = s₂.bytes ∧ s₁.consistencyIssues = s₂.consistencyIssues ∧
        s₁.readings = s₂.readings) ∧ ∀ s, L₁.snapshotOwnedUntilWithPolicy deadline policy = .ok s →
        ∀ a, ¬ policy.Visible a → s.bytes a = 0 := by
  have hagree : Agree policy L₁ L₂ := ⟨hlive, hnow, hreserves, total_le_of_shape hshape₁,
      total_le_of_shape hshape₂⟩
  have hsame : L₁.snapshotOwnedUntilWithPolicy deadline policy =
      L₂.snapshotOwnedUntilWithPolicy deadline policy := by
    rw [snapshotOwnedUntilWithPolicy, hshape₁,
      snapshotOwnedUntilWithPolicy, hshape₂, hagree.takeSnapshot]
  refine ⟨hsame, fun s₁ s₂ h₁ h₂ => ?_, fun s hs a ha => snapshot_hidden_zero hs ha⟩
  rw [hsame, h₂, Except.ok.injEq] at h₁
  subst h₁
  exact ⟨rfl, rfl, rfl⟩

/-- With breadcrumbs denied, a mapping with a record in its first ring cannot
be told from one without. -/
theorem snapshot_noninterference_breadcrumb :
    let policy : ShmSnapshotPolicy := ⟨false, true, true, true⟩
    let m := createdMapping.store (ringOffset 0) 8 7
    m (ringOffset 0) ≠ createdMapping (ringOffset 0) ∧
      (heldMapping m).snapshotOwnedUntilWithPolicy none policy =
        (heldMapping createdMapping).snapshotOwnedUntilWithPolicy none policy := by
  intro policy m
  have hsame : ∀ a, policy.Visible a → m a = createdMapping a := by
    intro a ha
    refine Mem.store_outside ?_
    by_contra hin
    have hdenied : false = true := by
      refine (visible_breadcrumbs (.inr ?_)).mp ha
      simp at hin ⊢
      omega
    cases hdenied
  refine ⟨by decide +kernel, ?_⟩
  exact (snapshot_noninterference policy none (heldMapping m)
    (heldMapping createdMapping) (heldMapping_shape m) (heldMapping_shape _)
    (fun _ => hsame) (fun _ => rfl) rfl).1

end CrashMonitor.Shm
