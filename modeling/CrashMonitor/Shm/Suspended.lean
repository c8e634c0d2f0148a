import CrashMonitor.Shm.Publication
import CrashMonitor.Shm.Sanitize

/-!
# Shared memory — snapshots of a suspended producer

While the producer is suspended the mapping stands still. A full snapshot
without a deadline is then a function of the memory (`suspended_snapshot`):
a unit whose generation is odd is zeroed and listed, everything else is the
memory itself. With the publication discipline this says that every unit is
either its last completed publication or is reported missing.
-/

namespace CrashMonitor.Shm

open Bytes Fallible Interleave Seqlock List PublicationUnit
variable {enabled : Bool} {offset n : Nat} {result : Mem} {u : PublicationUnit} {s : Sanitized}

/-! ## What is observed -/

/-- A mapping that stands still while it is snapshotted. -/
structure LiveMapping.Suspended (L : LiveMapping) (m : Mem) : Prop where
  len : shmTotalSize ≤ L.len
  aligned : L.address % shmRegionAlign = 0
  reserves : L.reserves = true
  live : ∀ t, L.live t = m

/-- The publication words of a memory. -/
structure StateOf (m : Mem) (state : LivePublicationState) : Prop where
  registry : state.registryGeneration = m.load registryGenerationOffset 4
  ringCount : state.ringCount = m.load ringCountOffset 4
  ring : ∀ i < 8, state.ringGenerations.getD i 0 = m.load (ringOffset i + ringGenerationOffset) 4
  context : state.contextGeneration = m.load contextGenerationOffset 4
  settings : state.settingsGeneration = m.load settingsGenerationOffset 4
  attachments : state.attachmentsGeneration = m.load attachmentsGenerationOffset 4
  ready : state.producerReady = m.load producerReadyOffset 4
  screenshot : ∀ i < 96, state.screenshotGenerations.getD i 0 =
    m.load (screenshotGenerationsOffset + i * 4) 4

variable {L : LiveMapping} {m : Mem} {before after state : LivePublicationState}
variable {bytes : Mem} {a : Nat} {policy : ShmSnapshotPolicy}

instance : DecidablePred HeaderGeneration := fun _ => inferInstanceAs (Decidable (_ ∨ _))

instance : DecidablePred policy.Visible := fun _ => inferInstanceAs (Decidable (_ ∨ _))

/-- The memory as far as a policy shows it. -/
def ShmSnapshotPolicy.mask (policy : ShmSnapshotPolicy) (m : Mem) : Mem :=
  fun a => if policy.Visible a then m a else 0

theorem mask_of_visible (h : policy.Visible a) : policy.mask m a = m a :=
  if_pos h

theorem mask_of_hidden (h : ¬ policy.Visible a) : policy.mask m a = 0 := if_neg h

/-- A word that is visible as a whole or not at all. -/
theorem Loaded.eq_mask {value} (h : Loaded L enabled offset value) (hlive : ∀ t, L.live t = m)
    (hvisible : ∀ a, offset ≤ a → a < offset + 4 → (policy.Visible a ↔ enabled = true)) :
    value = (policy.mask m).load offset 4 := by
  cases enabled with
  | true =>
    obtain ⟨t, ht⟩ := h.1 rfl
    rw [ht, hlive t]
    exact Mem.load_congr fun a h1 h2 => (mask_of_visible ((hvisible a h1 h2).mpr rfl)).symm
  | false =>
    rw [h.2 rfl, Mem.load_eq_zero fun a h1 h2 => mask_of_hidden fun hv =>
      Bool.false_ne_true ((hvisible a h1 h2).mp hv)]

/-- The permission a unit falls under. -/
def ShmSnapshotPolicy.allows (policy : ShmSnapshotPolicy) : PublicationUnit → Bool
  | .registry => policy.breadcrumbs
  | .ring _ => policy.breadcrumbs
  | .context => policy.context
  | .settings => policy.context
  | .attachments => policy.attachments
  | .screenshot _ => policy.screenshots

open ShmSnapshotPolicy

theorem visible_generation (u : PublicationUnit) (h1 : u.generation ≤ a)
    (h2 : a < u.generation + 4) : policy.Visible a ↔ policy.allows u = true := by
  have hword : ∀ {word : LiveAtomicWord}, word ∈ liveAtomicWords → word = ⟨u.generation, 4⟩ →
      (policy.Visible a ↔ policy.allowsAtomic u.generation = true) := by
    rintro word hmem rfl
    exact visible_iff_of_word hmem ⟨h1, h2⟩
  cases u with
  | ring i =>
    refine (hword (mem_liveAtomicWords.mpr ?_) rfl).trans ?_
    · exact .inr (.inr (.inr (.inr (.inr (.inl ⟨i, i.isLt, rfl⟩)))))
    · rw [generation, allowsAtomic_ring i.isLt, allows]
  | screenshot i =>
    refine (hword (mem_liveAtomicWords.mpr ?_) rfl).trans ?_
    · exact .inr (.inr (.inr (.inr (.inr (.inr (.inr (.inr ⟨i, i.isLt, rfl⟩)))))))
    · rw [generation, allowsAtomic_screenshot i.isLt, allows]
  | registry => exact visible_breadcrumbs (.inl ⟨h1, h2⟩)
  | attachments => exact visible_attachments (.inl ⟨h1, h2⟩)
  | context => exact hword (mem_liveAtomicWords.mpr (.inr (.inl rfl))) rfl
  | settings => exact hword (mem_liveAtomicWords.mpr (.inr (.inr (.inl rfl)))) rfl

theorem LoadedState.stateOf (h : LoadedState L policy state)
    (hlive : ∀ t, L.live t = m) : StateOf (policy.mask m) state where
  registry := h.registry.eq_mask hlive fun _ => visible_generation .registry
  ringCount := h.ringCount.eq_mask hlive fun a h1 h2 => by
    refine visible_breadcrumbs (.inr ?_)
    simp at h1 h2 ⊢
    omega
  ring := fun i hi => (h.ring i hi).eq_mask hlive fun _ => visible_generation (.ring ⟨i, hi⟩)
  context := h.context.eq_mask hlive fun _ => visible_generation .context
  settings := h.settings.eq_mask hlive fun _ => visible_generation .settings
  attachments := h.attachments.eq_mask hlive fun _ => visible_generation .attachments
  ready := h.ready.eq_mask hlive fun a h1 h2 => by
    refine iff_of_true (visible_header ?_ ?_) rfl <;>
      simp [HeaderGeneration] at h1 h2 ⊢ <;>
      omega
  screenshot := fun i hi => (h.screenshot i hi).eq_mask hlive fun _ =>
    visible_generation (.screenshot ⟨i, hi⟩)

theorem CopiedWhere.eq_of_suspended (h : CopiedWhere L (Readable policy) (fun _ => 0) bytes)
    (hlive : ∀ t, L.live t = m) : bytes a = policy.mask m a := by
  by_cases hvisible : policy.Visible a
  · obtain ⟨t, ht⟩ := (h a).1 (readable_iff_visible.mpr hvisible)
    rw [ht, hlive t, mask_of_visible hvisible]
  · rw [mask_of_hidden hvisible]
    exact (h a).2 fun hread => hvisible (readable_iff_visible.mp hread)

/-- With every section allowed, every byte of the mapping is read. -/
theorem visible_all (ha : a < shmTotalSize) : ShmSnapshotPolicy.Visible .all a := by
  simp [ShmSnapshotPolicy.Visible, ShmSnapshotPolicy.all, HeaderGeneration] at ha ⊢
  omega

/-! ## What becomes of a byte -/

namespace PublicationUnit

/-- The bytes that go when a unit is rejected: the registry takes the whole
breadcrumb section with it, rings and slots their generation, and the
heartbeat survives the context. -/
def Region : PublicationUnit → Nat → Prop
  | registry, a => section2Offset ≤ a ∧ a < section2Offset + section2Size
  | ring index, a => InRing index a
  | context, a => contextOffset + 8 ≤ a ∧ a < contextOffset + crashContextSize
  | settings, a => settingsOffset ≤ a ∧ a < settingsOffset + settingsSize
  | attachments, a => attachmentOffset ≤ a ∧ a < attachmentOffset + attachmentSectionSize
  | screenshot index, a => InSlot index a

theorem Payload.region {u : PublicationUnit} (h : u.Payload a) : u.Region a := by
  cases u with
  | registry =>
    simp [Payload, Region] at h ⊢
    omega
  | ring index =>
    simp [Payload, Region, InRing] at h ⊢
    omega
  | context => exact h
  | settings => exact h
  | attachments => exact h
  | screenshot index => exact .inr h

end PublicationUnit

/-- A publication of the unit is under way. -/
def Unfinished (m : Mem) (u : PublicationUnit) : Prop := m.load u.generation 4 % 2 = 1

/-- The byte goes with some unfinished unit. -/
def Rejected (m : Mem) (a : Nat) : Prop := ∃ u : PublicationUnit, Unfinished m u ∧ u.Region a

theorem stableGeneration_self : stableGeneration n n = true ↔ n % 2 = 0 := by
  simp [stableGeneration]

theorem stableGeneration_self_false : stableGeneration n n = false ↔ n % 2 = 1 := by
  rw [← Bool.not_eq_true, stableGeneration_self]
  omega

theorem unfinished_iff : Unfinished m u ↔ stableGeneration (m.load u.generation 4)
      (m.load u.generation 4) = false := by
  rw [stableGeneration_self_false, Unfinished]

theorem stable_of_finished (h : ¬ Unfinished m u) :
    stableGeneration (m.load u.generation 4) (m.load u.generation 4) = true := by
  rwa [unfinished_iff, Bool.not_eq_false] at h

/-- Writing back the word that is there changes nothing. -/
theorem writeOwned_same {width} (hfit : offset + width ≤ shmTotalSize)
    (h : bytes a = m a) : writeOwned width bytes offset (m.load offset width) a = m a := by
  by_cases hin : offset ≤ a ∧ a < offset + width
  · exact writeOwned_load hfit hin.1 hin.2
  · rw [writeOwned_outside (by omega)]
    exact h

theorem writeWhen_same (hfit : offset + 4 ≤ shmTotalSize) (h : bytes a = m a) :
    writeWhen enabled bytes offset (m.load offset 4) a = m a := by
  unfold writeWhen
  split
  · exact writeOwned_same hfit h
  · exact h

theorem writeHeaderWords_same (policy : ShmSnapshotPolicy)
    (hafter : StateOf m after) (h : bytes a = m a) :
    writeHeaderWords after policy bytes a = m a := by
  unfold writeHeaderWords
  rw [hafter.registry, hafter.context, hafter.settings, hafter.attachments, hafter.ready]
  exact writeWhen_same (by decide) (writeWhen_same (by decide)
    (writeWhen_same (by decide) (writeWhen_same (by decide) (writeWhen_same (by decide) h))))

/-- The byte is zeroed if it goes with an unfinished unit, and kept
otherwise. -/
def Settled (m result : Mem) (a : Nat) : Prop :=
  (Rejected m a → result a = 0) ∧ (¬ Rejected m a → result a = m a)

/-- A byte with one unit in charge of it. -/
theorem settled_of_unique (hu : u.Region a) (hunique : ∀ v, v.Region a → v = u)
    (hodd : Unfinished m u → result a = 0) (heven : ¬ Unfinished m u → result a = m a) :
    Settled m result a := by
  refine ⟨?_, fun hn => heven fun hfin => hn ⟨u, hfin, hu⟩⟩
  rintro ⟨v, hfin, hv⟩
  rw [hunique v hv] at hfin
  exact hodd hfin

/-- A byte that goes with no unfinished unit. -/
theorem settled_of_finished (hnone : ∀ v, v.Region a → ¬ Unfinished m v)
    (h : result a = m a) : Settled m result a :=
  ⟨fun ⟨v, hfin, hv⟩ => absurd hfin (hnone v hv), fun _ => h⟩

theorem settled_congr {result'} (h : result' a = result a) (hs : Settled m result a) :
    Settled m result' a := by
  unfold Settled
  rw [h]
  exact hs

theorem registryIsStable_iff (hbefore : StateOf m before) (hafter : StateOf m after) :
    registryIsStable before after = true ↔ ¬ Unfinished m .registry := by
  rw [registryIsStable, hbefore.registry, hafter.registry, hbefore.ringCount,
    hafter.ringCount, beq_self_eq_true, Bool.and_true, stableGeneration_self]
  simp only [Unfinished, generation]
  omega

theorem sanitizeRing_settled (hbefore : StateOf m before) (hafter : StateOf m after)
    {i} (hi : i < 8) (ha : InRing i a) (h : s.bytes a = m a) : (Unfinished m (.ring ⟨i, hi⟩) →
      (sanitizeRing before after s i).bytes a = 0) ∧ (¬ Unfinished m (.ring ⟨i, hi⟩) →
      (sanitizeRing before after s i).bytes a = m a) := by
  have hfit : ringOffset i + crumbRingSize ≤ shmTotalSize := by
    simp
    omega
  unfold sanitizeRing
  rw [hbefore.ring i hi, hafter.ring i hi]
  constructor
  · intro hodd
    rw [if_neg (by
      rw [Bool.not_eq_true]
      exact stableGeneration_self_false.mpr hodd)]
    dsimp only
    exact zeroOwnedRange_inside hfit ha.1 ha.2
  · intro heven
    rw [if_pos (by exact stable_of_finished heven)]
    dsimp only
    refine writeOwned_same ?_ h
    simp at hfit ⊢
    omega

theorem sanitizeBreadcrumbs_settled (hbefore : StateOf m before) (hafter : StateOf m after)
    (h1 : section2Offset ≤ a) (h2 : a < section2Offset + section2Size) (h : s.bytes a = m a) :
    Settled m (sanitizeBreadcrumbs before after s).bytes a := by
  by_cases hodd : Unfinished m .registry
  · have hunstable : registryIsStable before after = false := by
      rw [← Bool.not_eq_true, registryIsStable_iff hbefore hafter]
      exact not_not_intro hodd
    refine ⟨fun _ => sanitizeBreadcrumbs_of_unstable hunstable s h1 h2, ?_⟩
    exact fun hn => absurd ⟨.registry, hodd, h1, h2⟩ hn
  · have hstable := (registryIsStable_iff hbefore hafter).mpr hodd
    by_cases hring : a < ringCountOffset
    · obtain ⟨i, hi, hin⟩ : ∃ i < 8, InRing i a := by
        refine ⟨(a - 64) / 32784, ?_, ?_⟩ <;>
          simp [InRing] at * <;>
          omega
      obtain ⟨hzero, hkeep⟩ := sanitizeRing_settled hbefore hafter hi hin h
      rw [← sanitizeBreadcrumbs_ring hstable s hi hin] at hzero hkeep
      -- besides its ring, only the registry could take the byte
      refine ⟨?_, fun hn => hkeep fun hfin => hn ⟨_, hfin, hin⟩⟩
      rintro ⟨v, hfin, hv⟩
      cases v with
      | registry => exact absurd hfin hodd
      | ring j =>
        obtain rfl : j.val = i := inRing_unique hv hin
        exact hzero hfin
      | _ =>
        simp [Region, InSlot] at hv hring
        omega
    · rw [Nat.not_lt] at hring
      have hkeep : (sanitizeBreadcrumbs before after s).bytes a = m a := by
        rw [sanitizeBreadcrumbs_count hstable s hring, hafter.ringCount]
        exact writeOwned_same (by decide) h
      refine ⟨?_, fun _ => hkeep⟩
      rintro ⟨v, hfin, hv⟩
      cases v with
      | registry => exact absurd hfin hodd
      | _ =>
        simp [Region, InSlot, InRing] at hv hring h2
        omega

/-- Units lie between header and footer and leave the heartbeat alone. -/
theorem PublicationUnit.Region.window (h : u.Region a) : section2Offset ≤ a ∧ a < footerOffset ∧
      ¬ (heartbeatOffset ≤ a ∧ a < heartbeatOffset + 8) := by
  cases u <;>
    simp [Region, InSlot, InRing] at h ⊢ <;>
    omega

/-- The slots fill the screenshot section. -/
theorem exists_inSlot (h1 : section4Offset ≤ a) (h2 : a < footerOffset) : ∃ i < 96, InSlot i a := by
  simp at h1 h2
  simp [InSlot]
  by_cases hgen : a < 265808
  · exact ⟨(a - 265424) / 4, by omega, .inl (by omega)⟩
  by_cases htime : a < 266576
  · exact ⟨(a - 265808) / 8, by omega, .inr (.inl (by omega))⟩
  by_cases htier : a < 266960
  · exact ⟨(a - 266576) / 4, by omega, .inr (.inr (.inl (by omega)))⟩
  · exact ⟨(a - 266960) / 518400, by omega, .inr (.inr (.inr (by omega)))⟩

/-- Outside the breadcrumb section a byte has at most one unit. -/
theorem region_unique {v} (ha : contextOffset ≤ a) (hu : u.Region a) (hv : v.Region a) : v = u := by
  cases u <;> cases v <;>
    simp [Region, InSlot, InRing, Fin.ext_iff] at ha hu hv ⊢ <;>
    omega

/-- One of the three middle units; a denied one must not be unfinished. -/
theorem sanitizeUnit_settled {u} (hdenied : enabled = false → ¬ Unfinished m u) {len issue}
    (ha : contextOffset ≤ a) (hregion : u.Region a) (hfit : offset + len ≤ shmTotalSize)
    (hin : offset ≤ a ∧ a < offset + len) (h : s.bytes a = m a) :
    Settled m (sanitizeUnit enabled (m.load u.generation 4)
      (m.load u.generation 4) offset len issue s).bytes a := by
  refine settled_of_unique hregion (fun v => region_unique ha hregion)
    (fun hodd => ?_) fun heven => ?_
  · have henabled : enabled = true := by
      by_contra hne
      exact hdenied (Bool.eq_false_iff.mpr hne) hodd
    exact sanitizeUnit_of_unstable s henabled
      (stableGeneration_self_false.mpr hodd) hfit hin.1 hin.2
  · rw [sanitizeUnit_of_stable s (.inr (stable_of_finished heven))]
    exact h

section

variable (hbefore : StateOf m before) (hafter : StateOf m after)

include hbefore hafter

theorem sanitizeMiddle_settled (hdenied : ∀ u, policy.allows u = false → ¬ Unfinished m u)
    (h1 : contextOffset + 8 ≤ a) (h2 : a < section4Offset) (h : s.bytes a = m a) :
    Settled m (sanitizeContextSettingsAttachments before after policy s).bytes a := by
  have hcontext : contextOffset ≤ a := by omega
  unfold sanitizeContextSettingsAttachments
  rw [hbefore.context, hafter.context, hbefore.settings, hafter.settings,
    hbefore.attachments, hafter.attachments]
  rcases Nat.lt_or_ge a settingsOffset with hlt | hge
  · refine settled_congr (sanitizeUnit_outside _ (.inl ?_))
      (settled_congr (sanitizeUnit_outside _ (.inl hlt)) ?_)
    · exact Nat.lt_trans hlt (by decide)
    · exact sanitizeUnit_settled (hdenied .context) hcontext ⟨h1, hlt⟩ (by decide) ⟨hcontext, hlt⟩ h
  rcases Nat.lt_or_ge a attachmentOffset with hlt' | hge'
  · refine settled_congr (sanitizeUnit_outside _ (.inl hlt')) ?_
    refine sanitizeUnit_settled (hdenied .settings) hcontext ⟨hge, hlt'⟩ (by decide) ⟨hge, hlt'⟩ ?_
    exact (sanitizeUnit_outside _ (.inr hge)).trans h
  · refine sanitizeUnit_settled (hdenied .attachments) hcontext ⟨hge', h2⟩ (by decide) ⟨hge', h2⟩ ?_
    exact (sanitizeUnit_outside _ (.inr hge')).trans ((sanitizeUnit_outside _ (.inr hge)).trans h)

theorem sanitizeScreenshot_settled {i} (hi : i < 96) (ha : InSlot i a)
    (h : s.bytes a = m a) : Settled m (sanitizeScreenshot before after s i).bytes a := by
  have hcontext : contextOffset ≤ a := by
    simp [InSlot] at ha ⊢
    omega
  have hregion : Region (.screenshot ⟨i, hi⟩) a := ha
  refine settled_of_unique hregion (fun v => region_unique hcontext hregion)
    (fun hodd => ?_) fun heven => ?_
  · refine sanitizeScreenshot_of_unstable s hi ?_ ha
    rw [hbefore.screenshot i hi, hafter.screenshot i hi]
    exact stableGeneration_self_false.mpr hodd
  unfold sanitizeScreenshot
  rw [hbefore.screenshot i hi, hafter.screenshot i hi,
    if_pos (by exact stable_of_finished heven)]
  refine writeOwned_same ?_ h
  simp
  omega

/-- What becomes of a byte of the breadcrumb section. -/
theorem sanitizeCrumbs_settled (hdenied : ∀ u, policy.allows u = false → ¬ Unfinished m u)
    (h1 : section2Offset ≤ a) (h2 : a < section2Offset + section2Size) (h : s.bytes a = m a) :
    Settled m (if policy.breadcrumbs then sanitizeBreadcrumbs before after s
      else s).bytes a := by
  split
  · exact sanitizeBreadcrumbs_settled hbefore hafter h1 h2 h
  next hoff =>
  refine settled_of_finished (fun v hv => hdenied v ?_) h
  rw [Bool.not_eq_true] at hoff
  cases v with
  | registry => exact hoff
  | ring i => exact hoff
  | _ =>
    simp [Region, InSlot] at hv h2
    omega

/-- What becomes of a byte of the screenshot section. -/
theorem sanitizeShots_settled (hdenied : ∀ u, policy.allows u = false → ¬ Unfinished m u)
    (h1 : section4Offset ≤ a) (h2 : a < footerOffset) (h : s.bytes a = m a) :
    Settled m (if policy.screenshots then sanitizedScreenshots before after s
      else s).bytes a := by
  obtain ⟨i, hi, hslot⟩ := exists_inSlot h1 h2
  split
  · refine settled_congr (sanitizedScreenshots_slot _ hi hslot) ?_
    exact sanitizeScreenshot_settled hbefore hafter hi hslot h
  next hoff =>
  have hregion : Region (.screenshot ⟨i, hi⟩) a := hslot
  refine settled_of_finished (fun v hv => ?_) h
  rw [region_unique (Nat.le_trans (by decide) h1) hregion hv]
  exact hdenied _ (Bool.eq_false_iff.mpr hoff)

end

/-- A stage that a policy may leave out. -/
theorem stage_eq {s'} (h : s'.bytes a = s.bytes a) :
    (if enabled then s' else s).bytes a = s.bytes a := by
  split
  · exact h
  · rfl

/-- The copy once the header and the breadcrumb section are done. -/
def crumbStage (before after : LivePublicationState) (policy : ShmSnapshotPolicy) (bytes : Mem) :
    Sanitized :=
  if policy.breadcrumbs then sanitizeBreadcrumbs before after
    ⟨writeHeaderWords after policy bytes, []⟩ else ⟨writeHeaderWords after policy bytes, []⟩

/-- Sanitizing a copy of a memory that stood still, byte by byte. -/
theorem sanitizedPublications_settled (hbefore : StateOf m before) (hafter : StateOf m after)
    (hdenied : ∀ u, policy.allows u = false → ¬ Unfinished m u) {heartbeat}
    (hbeat : policy.context = true → heartbeat = m.load heartbeatOffset 8) (h : bytes a = m a) :
    Settled m (sanitizedPublications before after policy heartbeat bytes).bytes a := by
  have hheader := writeHeaderWords_same policy hafter h
  unfold sanitizedPublications
  dsimp only
  by_cases hin : heartbeatOffset ≤ a ∧ a < heartbeatOffset + 8
  · refine settled_of_finished (fun v hv => absurd hin hv.window.2.2) ?_
    split
    · next hon =>
        rw [hbeat hon]
        exact writeOwned_load (by decide) hin.1 hin.2
    next hoff =>
    rw [Bool.not_eq_true] at hoff
    have hout : section2Offset + section2Size ≤ a ∧ a < settingsOffset ∧
        a < attachmentOffset ∧ a < section4Offset := by
      simp at hin ⊢
      omega
    refine (stage_eq (sanitizedScreenshots_outside _ (.inl hout.2.2.2))).trans ?_
    unfold sanitizeContextSettingsAttachments
    rw [sanitizeUnit_outside _ (.inl hout.2.2.1), sanitizeUnit_outside _ (.inl hout.2.1),
      sanitizeUnit_of_stable _ (.inl hoff)]
    exact (stage_eq (sanitizeBreadcrumbs_outside _ (.inr hout.1))).trans hheader
  have hbeside : a < heartbeatOffset ∨ heartbeatOffset + 8 ≤ a := by omega
  refine settled_congr (stage_eq (writeOwned_outside hbeside)) ?_
  rcases Nat.lt_or_ge a section2Offset with hhead | hcrumbs
  · -- header
    refine settled_congr (stage_eq (sanitizedScreenshots_outside _
      (.inl (Nat.lt_trans hhead (by decide))))) <|
      settled_congr (sanitizeContextSettingsAttachments_outside _
        (.inl (Nat.lt_trans hhead (by decide)))) <|
      settled_congr (stage_eq (sanitizeBreadcrumbs_outside _ (.inl hhead))) <|
      settled_of_finished (fun v hv => ?_) hheader
    have := hv.window
    omega
  rcases Nat.lt_or_ge a (section2Offset + section2Size) with hlt | hmiddle
  · exact settled_congr (stage_eq (sanitizedScreenshots_outside _
      (.inl (Nat.lt_trans hlt (by decide))))) <|
      settled_congr (sanitizeContextSettingsAttachments_outside _ (.inl hlt)) <|
      sanitizeCrumbs_settled hbefore hafter hdenied hcrumbs hlt hheader
  have hpast : (crumbStage before after policy bytes).bytes a = m a :=
    (stage_eq (sanitizeBreadcrumbs_outside _ (.inr hmiddle))).trans hheader
  rcases Nat.lt_or_ge a section4Offset with hlt | hshots
  · refine settled_congr (stage_eq (sanitizedScreenshots_outside _ (.inl hlt))) <|
      sanitizeMiddle_settled hbefore hafter hdenied ?_ hlt hpast
    simp at hin hmiddle ⊢
    omega
  have hpast' : (sanitizeContextSettingsAttachments before after policy
      (crumbStage before after policy bytes)).bytes a = m a :=
    (sanitizeContextSettingsAttachments_outside _ (.inr hshots)).trans hpast
  rcases Nat.lt_or_ge a footerOffset with hlt | hfooter
  · exact sanitizeShots_settled hbefore hafter hdenied hshots hlt hpast'
  refine settled_congr (stage_eq (sanitizedScreenshots_outside _ (.inr hfooter))) <|
    settled_of_finished (fun v hv => ?_) hpast'
  have := hv.window
  omega

/-! ## Issues -/

/-- The unit an issue is about. -/
def ShmConsistencyIssue.unit : ShmConsistencyIssue → Option PublicationUnit
  | .breadcrumbRegistry .. => some .registry
  | .breadcrumbRing index .. =>
    if h : index < 8 then some (.ring ⟨index, h⟩) else none
  | .context .. => some .context
  | .settings .. => some .settings
  | .attachments .. => some .attachments
  | .screenshotSlot index .. =>
    if h : index < 96 then some (.screenshot ⟨index, h⟩) else none

/-- Some issue is about the unit. -/
def Lists (issues : List ShmConsistencyIssue) (u : PublicationUnit) : Prop :=
  ∃ issue ∈ issues, issue.unit = some u

theorem lists_append {issues issues'} :
    Lists (issues ++ issues') u ↔ Lists issues u ∨ Lists issues' u := by
  simp only [Lists, mem_append, or_and_right, exists_or]

theorem lists_singleton {issue} : Lists [issue] u ↔ issue.unit = some u := by simp [Lists]

theorem not_lists_nil : ¬ Lists [] u := by simp [Lists]

/-- The issue of one unit. -/
theorem lists_issue {v issue c} [Decidable c]
    (hunit : issue.unit = some v) (hc : c ↔ Unfinished m v) :
    Lists (if c then [issue] else []) u ↔ u = v ∧ Unfinished m u := by
  split
  · next h =>
    rw [lists_singleton, hunit, Option.some.injEq]
    constructor
    · rintro rfl
      exact ⟨rfl, hc.mp h⟩
    · rintro ⟨rfl, -⟩
      rfl
  · next h =>
    refine iff_of_false not_lists_nil ?_
    rintro ⟨rfl, hfin⟩
    exact h (hc.mpr hfin)

/-- The issues of a family of units, one after the other. -/
theorem lists_family {found} {unit : Fin n → PublicationUnit}
    (h : ∀ i, Lists (found i) u ↔ u = unit i ∧ Unfinished m u) :
    Lists ((List.range n).flatMap found) u ↔ (∃ i, u = unit i) ∧ Unfinished m u := by
  simp only [Lists, mem_flatMap, mem_range]
  constructor
  · rintro ⟨issue, ⟨i, hi, hmem⟩, hunit⟩
    obtain ⟨heq, hfin⟩ := (h ⟨i, hi⟩).mp ⟨issue, hmem, hunit⟩
    exact ⟨⟨_, heq⟩, hfin⟩
  · rintro ⟨⟨i, rfl⟩, hfin⟩
    obtain ⟨issue, hmem, hunit⟩ := (h i).mpr ⟨rfl, hfin⟩
    exact ⟨issue, ⟨i, i.isLt, hmem⟩, hunit⟩

theorem lists_breadcrumbIssues (hbefore : StateOf m before) (hafter : StateOf m after) :
    Lists (breadcrumbIssues before after) u ↔
      (u = .registry ∧ Unfinished m u) ∨
      ((∃ i, u = .ring i) ∧ Unfinished m u ∧ ¬ Unfinished m .registry) := by
  by_cases hodd : Unfinished m .registry
  · have hunstable : registryIsStable before after = false := by
      rw [← Bool.not_eq_true, registryIsStable_iff hbefore hafter]
      exact not_not_intro hodd
    rw [breadcrumbIssues, hunstable, if_neg (by simp), lists_singleton]
    simp only [ShmConsistencyIssue.unit, Option.some.injEq, hodd,
      not_true_eq_false, and_false, or_false]
    constructor
    · rintro rfl
      exact ⟨rfl, hodd⟩
    · rintro ⟨rfl, -⟩
      rfl
  · have hstable := (registryIsStable_iff hbefore hafter).mpr hodd
    have hrings : ∀ i : Fin 8, Lists (ringIssue before after i) u ↔
        u = .ring i ∧ Unfinished m u := by
      intro i
      rw [ringIssue, hbefore.ring i i.isLt, hafter.ring i i.isLt, ← ite_not]
      exact lists_issue (dif_pos i.isLt) (by rw [Bool.not_eq_true, unfinished_iff]; rfl)
    rw [breadcrumbIssues, hstable, if_pos rfl, crumbMaxThreads, lists_family hrings]
    constructor
    · rintro ⟨hring, hfin⟩
      exact .inr ⟨hring, hfin, hodd⟩
    rintro (⟨rfl, hfin⟩ | ⟨hring, hfin, -⟩)
    · exact absurd hfin hodd
    · exact ⟨hring, hfin⟩

theorem lists_screenshotIssues (hbefore : StateOf m before) (hafter : StateOf m after) :
    Lists ((List.range screenshotSlots).flatMap
        (screenshotIssue before after)) u ↔ (∃ i, u = .screenshot i) ∧ Unfinished m u := by
  refine lists_family fun i => ?_
  rw [screenshotIssue, hbefore.screenshot i i.isLt, hafter.screenshot i i.isLt, ← ite_not]
  exact lists_issue (dif_pos i.isLt) (by rw [Bool.not_eq_true, unfinished_iff]; rfl)

/-- The issue of one middle unit. -/
theorem lists_unitIssue {m v} {issue : Nat → Nat → ShmConsistencyIssue} {generation}
    (hunit : ∀ x y, (issue x y).unit = some v) (hdenied : enabled = false → ¬ Unfinished m v)
    (hgen : generation = m.load v.generation 4) :
    Lists (if enabled && !stableGeneration generation generation then
      [issue generation generation] else []) u ↔ u = v ∧ Unfinished m u := by
  subst hgen
  apply lists_issue (hunit _ _)
  rw [Bool.and_eq_true, Bool.not_eq_true', ← unfinished_iff]
  constructor
  · exact And.right
  intro hfin
  refine ⟨?_, hfin⟩
  by_contra hne
  exact hdenied (Bool.eq_false_iff.mpr hne) hfin

/-- The issues of a stage that a policy may leave out. -/
theorem stage_issues {s' found} (h : s'.issues = s.issues ++ found) :
    (if enabled then s' else s).issues = s.issues ++ if enabled then found else [] := by
  split
  · exact h
  · rw [append_nil]

theorem lists_stage (enabled : Bool) {found P}
    (h : Lists found u ↔ P) (hdenied : enabled = false → ¬ P) :
    Lists (if enabled then found else []) u ↔ P := by
  split
  · exact h
  · next hoff => exact iff_of_false not_lists_nil (hdenied (Bool.eq_false_iff.mpr hoff))

/-- A unit is listed exactly if it is unfinished; of the breadcrumb section
only the registry is, if it is itself unfinished. -/
theorem lists_sanitized (hbefore : StateOf m before) (hafter : StateOf m after)
    (hdenied : ∀ u, policy.allows u = false → ¬ Unfinished m u) {heartbeat} :
    Lists (sanitizedPublications before after policy heartbeat bytes).issues u ↔
      Unfinished m u ∧ ((∃ i, u = .ring i) → ¬ Unfinished m .registry) := by
  have hissues : (sanitizedPublications before after policy heartbeat bytes).issues =
      (if policy.screenshots then sanitizedScreenshots before after
        (sanitizeContextSettingsAttachments before after policy
          (crumbStage before after policy bytes)) else sanitizeContextSettingsAttachments before
            after policy (crumbStage before after policy bytes)).issues := by
    unfold sanitizedPublications
    dsimp only
    split <;> rfl
  have hcrumbs := lists_stage policy.breadcrumbs
    (lists_breadcrumbIssues hbefore hafter (u := u)) (by
      rintro hoff (⟨rfl, hfin⟩ | ⟨⟨i, rfl⟩, hfin, -⟩)
      · exact hdenied .registry hoff hfin
      · exact hdenied (.ring i) hoff hfin)
  have hshots := lists_stage policy.screenshots (lists_screenshotIssues hbefore hafter (u := u)) (by
      rintro hoff ⟨⟨i, rfl⟩, hfin⟩
      exact hdenied (.screenshot i) hoff hfin)
  have hcontext : policy.context = false → ¬ Unfinished m .context := hdenied .context
  have hsettings : policy.context = false → ¬ Unfinished m .settings := hdenied .settings
  have hattachments : policy.attachments = false →
      ¬ Unfinished m .attachments := hdenied .attachments
  rw [hissues, stage_issues (sanitizedScreenshots_issues _),
    sanitizeContextSettingsAttachments, sanitizeUnit_issues,
    sanitizeUnit_issues, sanitizeUnit_issues, crumbStage,
    stage_issues (sanitizeBreadcrumbs_issues _), lists_append, lists_append,
    lists_append, lists_append, lists_append, hcrumbs, hshots,
    hbefore.context, hafter.context, hbefore.settings, hafter.settings,
    hbefore.attachments, hafter.attachments, lists_unitIssue (fun _ _ => rfl) hcontext,
    lists_unitIssue (fun _ _ => rfl) hsettings, lists_unitIssue (fun _ _ => rfl) hattachments]
  · cases u <;> simp [not_lists_nil]
  all_goals rfl

/-! ## The snapshot -/

open OwnedShmSnapshot

theorem fromOwnedBytes_eq_ok {issues} (h : ValidHeader bytes) :
    fromOwnedBytes bytes shmTotalSize issues = .ok ⟨bytes, shmTotalSize, footerOffset, issues⟩ := by
  have hmagic : readU32
      ⟨bytes, shmTotalSize, footerOffset, issues⟩ section1Offset = some shmMagic := by
    rw [← h.magic]
    rfl
  have hversion : readU32
      ⟨bytes, shmTotalSize, footerOffset, issues⟩ (section1Offset + 4) = some shmVersion := by
    rw [← h.version]
    rfl
  have hvalidate : validate ⟨bytes, shmTotalSize, footerOffset, issues⟩ = .ok () := by
    have hlen : ¬ (shmTotalSize < minVariableSnapshotSize ∨
        shmTotalSize < shmTotalSize) := by decide
    have hcanary : (if footerOffset + 4 ≤ shmTotalSize then
        bytes.load footerOffset 4 else 0) = shmCanary := by
      rw [if_pos (by decide), h.canary]
    unfold validate
    rw [hmagic, hversion]
    rw [if_neg hlen, hcanary, if_neg (by simp), if_neg (by simp), if_neg (by simp)]
  unfold fromOwnedBytes
  rw [if_pos rfl]
  dsimp only
  rw [hvalidate]

/-- A snapshot shows a memory: unfinished units are listed and zeroed, every
other byte is kept. -/
structure OwnedShmSnapshot.Shows (snapshot : OwnedShmSnapshot) (m : Mem) : Prop where
  len : snapshot.len = shmTotalSize
  payloadLen : snapshot.payloadLen = footerOffset
  bytes : ∀ a < shmTotalSize, Settled m snapshot.bytes a
  issues : ∀ u, Lists snapshot.consistencyIssues u ↔
    Unfinished m u ∧ ((∃ i, u = .ring i) → ¬ Unfinished m .registry)

/-- The metadata lies before the generations and in the footer. -/
theorem ValidHeader.congr (hm : ValidHeader m) (h : ∀ a, a < registryGenerationOffset ∨
      (footerOffset ≤ a ∧ a < shmTotalSize) → result a = m a) : ValidHeader result := by
  have hsame : ∀ {b : Nat}, b + 4 ≤ registryGenerationOffset ∨
      (footerOffset ≤ b ∧ b + 4 ≤ shmTotalSize) → result.load b 4 = m.load b 4 := by
    intro b hb
    refine Mem.load_congr fun a h1 h2 => h a ?_
    omega
  refine ⟨?_, ?_, ?_⟩
  · rw [hsame (.inl (by decide)), hm.magic]
  · rw [hsame (.inl (by decide)), hm.version]
  · rw [hsame (.inr (by decide)), hm.canary]

theorem settled_header (h : ∀ a < shmTotalSize, Settled m result a) (hm : ValidHeader m) :
    ValidHeader result := by
  refine hm.congr fun a ha => (h a ?_).2 ?_
  · simp at ha ⊢
    omega
  rintro ⟨v, -, hv⟩
  have := hv.window
  simp at ha this
  omega

/-- No unit a policy denies looks unfinished through its mask. -/
theorem not_unfinished_mask (h : policy.allows u = false) : ¬ Unfinished (policy.mask m) u := by
  have hzero : (policy.mask m).load u.generation 4 = 0 :=
    Mem.load_eq_zero fun a h1 h2 => mask_of_hidden fun hv => by
      rw [(visible_generation u h1 h2).mp hv] at h
      cases h
  rw [Unfinished, hzero]
  decide

theorem mask_validHeader (hm : ValidHeader m) : ValidHeader (policy.mask m) := by
  refine hm.congr fun a ha => mask_of_visible ?_
  simp [Visible, HeaderGeneration] at ha ⊢
  omega

/-- **A snapshot of a suspended producer** fails on its deadline only, and
shows what the policy lets through. -/
theorem suspended_snapshot_policy (hL : L.Suspended m) (hm : ValidHeader m)
    (deadline : Option Nat) (policy : ShmSnapshotPolicy) :
    (∃ snapshot, L.snapshotOwnedUntilWithPolicy deadline policy =
        .ok snapshot ∧ snapshot.Shows (policy.mask m)) ∨
      ∃ e, L.snapshotOwnedUntilWithPolicy deadline policy = .error e ∧ OnlyDeadline deadline e := by
  have hshape : validateMappingShape L.address L.len = .ok () := by
    rw [validateMappingShape, if_neg (Nat.not_lt.mpr hL.len), if_neg (not_not_intro hL.aligned)]
  have hdetermined : ∀ seen, Observed L policy seen → ∃ snapshot,
      snapshotOf policy seen = .ok snapshot ∧ snapshot.Shows (policy.mask m) := by
    intro seen hseen
    have hbefore := hseen.before.stateOf hL.live
    have hafter := hseen.after.stateOf hL.live
    have hbeat : policy.context = true →
        seen.heartbeat = (policy.mask m).load heartbeatOffset 8 := by
      intro hon
      obtain ⟨t, ht⟩ := hseen.heartbeat hon
      rw [ht, hL.live t]
      refine Mem.load_congr fun a h1 h2 => (mask_of_visible ?_).symm
      refine (visible_context (.inr ?_)).mpr hon
      simp only [heartbeatOffset, contextOffset, attachmentOffset] at h1 h2 ⊢
      omega
    have hsettled : ∀ a < shmTotalSize, Settled (policy.mask m)
        (sanitizedPublications seen.before seen.after policy seen.heartbeat
          seen.bytes).bytes a := fun a _ => sanitizedPublications_settled hbefore hafter
        (fun _ => not_unfinished_mask) hbeat (hseen.bytes.eq_of_suspended hL.live)
    refine ⟨_, fromOwnedBytes_eq_ok (settled_header hsettled
      (mask_validHeader hm)), rfl, rfl, hsettled, fun u => ?_⟩
    exact lists_sanitized hbefore hafter (fun _ => not_unfinished_mask)
  rw [LiveMapping.snapshotOwnedUntilWithPolicy, hshape]
  rcases (runs_takeSnapshot hL.len).run'_eq 0 with ⟨snapshot, hrun, seen, hseen, hsnapshot⟩ |
    ⟨e, hrun, hdeadline | hreserves | ⟨seen, hseen, herror⟩⟩
  · obtain ⟨snapshot', hok, hshows⟩ := hdetermined seen hseen
    rw [hsnapshot, Except.ok.injEq] at hok
    subst hok
    exact .inl ⟨snapshot, hrun, hshows⟩
  · exact .inr ⟨e, hrun, hdeadline⟩
  · rw [hL.reserves] at hreserves
    cases hreserves
  · obtain ⟨snapshot', hok, -⟩ := hdetermined seen hseen
    rw [herror] at hok
    cases hok

theorem unfinished_congr {m'} (h : ∀ a < shmTotalSize, m' a = m a) :
    Unfinished m' u ↔ Unfinished m u := by
  have hgen : u.generation + 4 ≤ shmTotalSize := by
    cases u <;>
      simp only [generation, registryGenerationOffset,
        contextGenerationOffset, settingsGenerationOffset,
        attachmentsGenerationOffset, ringOffset, ringsOffset, crumbRingSize,
        ringGenerationOffset, screenshotGenerationsOffset, shmTotalSize] <;>
      omega
  rw [Unfinished, Unfinished, Mem.load_congr fun a _ h2 => h a (by omega)]

/-- **A full snapshot of a suspended producer** succeeds and shows the
memory. -/
theorem suspended_snapshot (hL : L.Suspended m) (hm : ValidHeader m) :
    ∃ snapshot, L.snapshotOwnedUntilWithPolicy none .all = .ok snapshot ∧ snapshot.Shows m := by
  rcases suspended_snapshot_policy hL hm none .all with ⟨snapshot, hok, hshows⟩ | ⟨e, -, hnone, -⟩
  · have hmask : ∀ a < shmTotalSize, mask .all m a = m a :=
      fun a ha => mask_of_visible (visible_all ha)
    have hfinished : ∀ u, Unfinished (mask .all m) u ↔
        Unfinished m u := fun u => unfinished_congr hmask
    have hrejected : ∀ a, Rejected (mask .all m) a ↔
        Rejected m a := fun a => by simp only [Rejected, hfinished]
    refine ⟨snapshot, hok, hshows.len, hshows.payloadLen, fun a ha => ?_, fun u => ?_⟩
    · have hbyte := hshows.bytes a ha
      rwa [Settled, hrejected, hmask a ha] at hbyte
    · rw [hshows.issues, hfinished, hfinished]
  · cases hnone

/-! ## Producers stopped at any step -/

/-- The unit is reported missing: it is listed, or it is a part of the
breadcrumb section and the registry is listed. -/
def OwnedShmSnapshot.Reports (snapshot : OwnedShmSnapshot) (u : PublicationUnit) : Prop :=
  Lists snapshot.consistencyIssues u ∨
    (u.inBreadcrumbs = true ∧ Lists snapshot.consistencyIssues .registry)

theorem OwnedShmSnapshot.Shows.reports_iff {snapshot : OwnedShmSnapshot} (h : snapshot.Shows m) :
    snapshot.Reports u ↔ Unfinished m u ∨ (u.inBreadcrumbs = true ∧ Unfinished m .registry) := by
  rw [Reports, h.issues, h.issues]
  by_cases hodd : Unfinished m .registry
  · cases u <;> simp [inBreadcrumbs, hodd]
  · cases u <;> simp [inBreadcrumbs, hodd]

/-- A payload byte goes with its own unit, or with the registry. -/
theorem rejected_payload (ha : u.Payload a) :
    Rejected m a ↔ Unfinished m u ∨ (u.inBreadcrumbs = true ∧ Unfinished m .registry) := by
  constructor
  · rintro ⟨v, hfin, hv⟩
    by_cases hcontext : contextOffset ≤ a
    · rw [region_unique hcontext ha.region hv] at hfin
      exact .inl hfin
    cases v with
    | registry =>
      refine .inr ⟨?_, hfin⟩
      cases u <;> first
      | rfl
      | exfalso
        simp [Payload] at ha hcontext
        omega
    | ring j =>
      cases u with
      | ring i =>
        have hin : InRing i a := Payload.region ha
        rw [Fin.ext (inRing_unique hv hin)] at hfin
        exact .inl hfin
      | _ =>
        exfalso
        simp [Payload, Region, InRing] at ha hv hcontext
        omega
    | _ =>
      exfalso
      simp [Region, InSlot] at hv hcontext
      omega
  · rintro (hfin | ⟨hcrumb, hfin⟩)
    · exact ⟨u, hfin, ha.region⟩
    refine ⟨.registry, hfin, ?_⟩
    cases u with
    | registry => exact ha.region
    | ring index =>
      simp [Payload, Region] at ha ⊢
      omega
    | _ => cases hcrumb

theorem PublicationUnit.Payload.lt_total (ha : u.Payload a) : a < shmTotalSize := by
  have hwindow := ha.region.window
  simp at hwindow ⊢
  omega

/-- Header and footer are never written by a call. -/
theorem owned_validHeader {ι : Type} {m₀ : Mem} {s}
    {ρ : ι → Claims PublicationUnit} (h : publicationLayout.Owned m₀ s ρ) (hm : ValidHeader m₀) :
    ValidHeader s.mem := by
  refine hm.congr fun a ha => h.fixed a ⟨?_, fun u => ⟨fun hpay => ?_, ?_⟩⟩
  · simp [publicationLayout, FreeWord] at ha ⊢
    omega
  · have hwindow := hpay.region.window
    simp at ha hwindow
    omega
  simp at ha
  cases u <;>
    simp [publicationLayout, generation] <;>
    omega

/-- **Suspended-producer snapshots.** Producer threads make any SDK calls in
any interleaving over a fresh mapping and are stopped at any step. A full
snapshot then succeeds, and every unit either holds exactly what its last
completed publication left, or is reported and zeroed; a listed registry
zeroes the whole breadcrumb section, and outside that section a unit is
reported only for its own unfinished publication. -/
theorem suspended_producer_snapshot {ι : Type} [DecidableEq ι] {m₀ : Mem} (hfresh : FreshMapping m₀)
    {c : Config SharedMemory.memSig (Shared PublicationUnit) ι Int}
    (hreach : (producerSystem ι).Reach (Shared.initial m₀) c)
    {L : LiveMapping} (hL : L.Suspended c.shared.mem) :
    ∃ snapshot, L.snapshotOwnedUntilWithPolicy none .all = .ok snapshot ∧ (∀ u : PublicationUnit,
        (¬ snapshot.Reports u ∧
          ∀ a, u.Payload a → snapshot.bytes a = c.shared.committed u a) ∨
        (snapshot.Reports u ∧ ∀ a, u.Payload a → snapshot.bytes a = 0)) ∧
      (Lists snapshot.consistencyIssues .registry →
        ∀ a, section2Offset ≤ a → a < section2Offset + section2Size →
          snapshot.bytes a = 0) ∧ (∀ u : PublicationUnit, u.inBreadcrumbs = false →
        (snapshot.Reports u ↔ Unfinished c.shared.mem u)) := by
  obtain ⟨ρ, howned⟩ := producer_reach_owned (fun u => by rw [hfresh.generation_eq_zero u]) hreach
  obtain ⟨snapshot, hsnapshot, hshows⟩ :=
    suspended_snapshot hL (owned_validHeader howned hfresh.toValidHeader)
  refine ⟨snapshot, hsnapshot, fun u => ?_, fun hlist a h1 h2 => ?_, fun u hout => ?_⟩
  · by_cases hreport : snapshot.Reports u
    · refine .inr ⟨hreport, fun a ha => (hshows.bytes a ha.lt_total).1 ?_⟩
      exact (rejected_payload ha).mpr (hshows.reports_iff.mp hreport)
    refine .inl ⟨hreport, fun a ha => ?_⟩
    rw [hshows.reports_iff] at hreport
    rw [(hshows.bytes a ha.lt_total).2 (mt (rejected_payload ha).mp hreport)]
    -- the generation is even, so nobody holds the unit
    refine (howned.unclaimed u fun i => ?_).2 a ha
    by_contra hclaim
    obtain ⟨claim, hsome⟩ := Option.ne_none_iff_exists'.mp hclaim
    obtain ⟨htoken, hodd, -⟩ := howned.claimed i u claim hsome
    refine hreport (.inl ?_)
    show c.shared.mem.load (publicationLayout.gen u) 4 % 2 = 1
    rw [htoken]
    exact hodd
  · refine (hshows.bytes a (Nat.lt_trans h2 (by decide))).1 ?_
    exact ⟨.registry, ((hshows.issues _).mp hlist).1, h1, h2⟩
  · rw [hshows.reports_iff, hout]
    simp

theorem heldMapping_suspended (m : Mem) : (heldMapping m).Suspended m :=
  ⟨Nat.le_refl _, rfl, rfl, fun _ => rfl⟩

/-- The memory once a thread has claimed the context of a created mapping. -/
def claimedContext : Shared PublicationUnit :=
  ⟨createdMapping.store contextGenerationOffset 4 1, fun _ => createdMapping⟩

theorem claimedContext_reachable : ∃ c,
      (producerSystem (Fin 2)).Reach (Shared.initial createdMapping) c ∧
      c.shared = claimedContext := by
  have hzero : createdMapping.load contextGenerationOffset 4 = 0 :=
    createdMapping_fresh.generation_eq_zero .context
  have hload : (producerSystem (Fin 2)).step
      (.load contextGenerationOffset 4) (Shared.initial createdMapping) (0 : Nat)
      (Shared.initial createdMapping) := by
    refine ⟨?_, fun u => ⟨?_, fun _ => rfl⟩⟩
    · exact Prod.ext hzero rfl
    · rintro ⟨n, heq, -⟩
      cases heq
  have hcas : (producerSystem (Fin 2)).step
      (.cas contextGenerationOffset 4 0 1) (Shared.initial createdMapping) true claimedContext := by
    refine ⟨?_, fun u => ⟨?_, fun _ => rfl⟩⟩
    · exact @if_pos _ _ hzero _ (true, createdMapping.store contextGenerationOffset 4 1)
        (false, createdMapping)
    · rintro ⟨n, heq, -⟩
      cases heq
  have hstart : (producerSystem (Fin 2)).Step ⟨Shared.initial createdMapping, fun _ => none⟩ _ :=
    .start 0 (SdkCall.annotate (some [107]) (some [118])).prog rfl ⟨_, rfl⟩
  refine ⟨_, .tail (.tail (.tail .refl hstart) (.call 0 _ _ _ (Function.update_self ..) hload))
    (.call 0 _ _ _ (Function.update_self ..) hcas), rfl⟩

/-- One of two threads is stopped right after it claimed the context: the
context is reported and zeroed. -/
theorem suspended_producer_snapshot_claimed :
    ∃ c : Config SharedMemory.memSig (Shared PublicationUnit) (Fin 2) Int,
      (producerSystem (Fin 2)).Reach (Shared.initial createdMapping) c ∧
      c.shared = claimedContext ∧
      ∃ snapshot, (heldMapping c.shared.mem).snapshotOwnedUntilWithPolicy none
        .all = .ok snapshot ∧ snapshot.Reports .context ∧
        ∀ a, Payload .context a → snapshot.bytes a = 0 := by
  obtain ⟨c, hreach, hshared⟩ := claimedContext_reachable
  obtain ⟨snapshot, hsnapshot, hunits, -, houtside⟩ :=
    suspended_producer_snapshot createdMapping_fresh hreach (heldMapping_suspended c.shared.mem)
  have hfin : Unfinished c.shared.mem .context := by
    rw [hshared]
    show (createdMapping.store contextGenerationOffset 4 1).load contextGenerationOffset 4 % 2 = 1
    calc _ = 1 % 256 ^ 4 % 2 := by rw [Mem.load_store_self]
      _ = 1 := by decide
  have hreport := (houtside .context rfl).mpr hfin
  refine ⟨c, hreach, hshared, snapshot, hsnapshot, hreport, ?_⟩
  rcases hunits .context with ⟨hnot, -⟩ | ⟨-, hzero⟩
  · exact absurd hreport hnot
  · exact hzero

end CrashMonitor.Shm
