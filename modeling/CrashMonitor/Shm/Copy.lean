import CrashMonitor.Lib.Fallible
import CrashMonitor.Shm.Snapshot

/-!
# Shared memory — what a snapshot observes

The copy is cut at the 111 atomic words and clipped against six sections.
`Readable` says which bytes that leaves, and `runs_copyAll` that exactly
those are copied, each as it was at some moment, while every other byte of
the buffer stays zero. Nothing here assumes that the mapping stands still.
-/

namespace CrashMonitor.Shm

open Bytes Fallible List

variable {L : LiveMapping} {deadline : Option Nat} {policy : ShmSnapshotPolicy}
variable {E : ShmSnapshotError → Prop}
variable {P : Nat → Prop} {word : LiveAtomicWord}

/-- The failure of a computation that only checks the deadline. -/
def OnlyDeadline (deadline : Option Nat) (e : ShmSnapshotError) : Prop :=
  deadline.isSome = true ∧ e = .deadlineExceeded

theorem runs_checkSnapshotDeadline : Runs (OnlyDeadline deadline) (L.checkSnapshotDeadline deadline)
      fun _ => True := by
  cases deadline with
  | none => exact .pure trivial
  | some d =>
    have hclock : Runs (OnlyDeadline (some d)) L.readClock fun _ => True :=
      fun t => .inl ⟨L.now t, t + 1, rfl, trivial⟩
    refine .bind hclock fun now _ => ?_
    refine .ite (fun _ t => ?_) fun _ => .pure trivial
    exact .inr ⟨_, rfl, rfl, rfl⟩

/-! ## Publication words -/

/-- A word that is loaded at some moment if `enabled`, and zero otherwise. -/
def Loaded (L : LiveMapping) (enabled : Bool) (offset value : Nat) : Prop :=
  (enabled = true → ∃ t, value = (L.live t).load offset 4) ∧ (enabled = false → value = 0)

theorem runs_loadAtomicAt {width offset} (hlen : offset + width ≤ L.len)
    (halign : offset % width = 0) : Runs E (L.loadAtomicAt width offset) fun value =>
      ∃ t, value = some ((L.live t).load offset width) := by
  refine .ite (fun h => by omega) fun _ t => ?_
  exact .inl ⟨_, t + 1, rfl, t, rfl⟩

theorem runs_loadU32 {enabled offset} (hlen : offset + 4 ≤ L.len)
    (halign : offset % 4 = 0) : Runs E (L.loadU32 enabled offset) (Loaded L enabled offset) := by
  cases enabled with
  | false => exact .pure ⟨by simp, fun _ => rfl⟩
  | true =>
    refine .bind (runs_loadAtomicAt hlen halign) ?_
    rintro _ ⟨t, rfl⟩
    exact .pure ⟨fun _ => ⟨t, rfl⟩, by simp⟩

/-- Every word of the state was loaded, as far as the policy allows. -/
structure LoadedState (L : LiveMapping) (policy : ShmSnapshotPolicy)
    (state : LivePublicationState) : Prop where
  registry : Loaded L policy.breadcrumbs registryGenerationOffset state.registryGeneration
  ringCount : Loaded L policy.breadcrumbs ringCountOffset state.ringCount
  ring : ∀ i < 8, Loaded L policy.breadcrumbs
    (ringOffset i + ringGenerationOffset) (state.ringGenerations.getD i 0)
  context : Loaded L policy.context contextGenerationOffset state.contextGeneration
  settings : Loaded L policy.context settingsGenerationOffset state.settingsGeneration
  attachments : Loaded L policy.attachments attachmentsGenerationOffset state.attachmentsGeneration
  ready : Loaded L true producerReadyOffset state.producerReady
  screenshot : ∀ i < 96, Loaded L policy.screenshots (screenshotGenerationsOffset + i * 4)
    (state.screenshotGenerations.getD i 0)

theorem runs_loadPublicationState (hlen : shmTotalSize ≤ L.len) :
    Runs E (L.loadPublicationState policy) (LoadedState L policy) := by
  have hload : ∀ {enabled : Bool} {offset : Nat}, offset + 4 ≤ shmTotalSize →
      offset % 4 = 0 → Runs E (L.loadU32 enabled offset) (Loaded L enabled offset) :=
    fun hfit halign => runs_loadU32 (Nat.le_trans hfit hlen) halign
  refine .bind (.mapM_range 0 fun i hi => hload ?_ ?_) fun _ hring => ?_
  · simp only [ringOffset, ringsOffset, crumbRingSize, ringGenerationOffset,
      shmTotalSize, crumbMaxThreads] at *
    omega
  · simp
    omega
  refine .bind (.mapM_range 0 fun i hi => hload ?_ ?_) fun _ hscreenshot => ?_
  · simp only [screenshotGenerationsOffset, shmTotalSize, screenshotSlots] at *
    omega
  · simp only [screenshotGenerationsOffset]
    omega
  refine .bind (hload (by decide) rfl) fun _ hregistry => ?_
  refine .bind (hload (by decide) rfl) fun _ hcount => ?_
  refine .bind (hload (by decide) rfl) fun _ hcontext => ?_
  refine .bind (hload (by decide) rfl) fun _ hsettings => ?_
  refine .bind (hload (by decide) rfl) fun _ hattachments => ?_
  refine .bind (hload (by decide) rfl) fun _ hready => ?_
  exact .pure {
    registry := hregistry, ringCount := hcount, ring := hring
    context := hcontext, settings := hsettings, attachments := hattachments
    ready := hready, screenshot := hscreenshot }

/-! ## Ranges -/

/-- The bytes of `P` were copied, each at some moment, and no other byte of
the buffer changed. -/
def CopiedWhere (L : LiveMapping) (P : Nat → Prop) (bytes bytes' : Mem) : Prop :=
  ∀ a, (P a → ∃ t, bytes' a = L.live t a) ∧ (¬ P a → bytes' a = bytes a)

theorem CopiedWhere.none (L : LiveMapping) (bytes : Mem) (h : ∀ a, ¬ P a) :
    CopiedWhere L P bytes bytes := fun a => ⟨fun ha => absurd ha (h a), fun _ => rfl⟩

theorem CopiedWhere.congr {Q b b'} (h : CopiedWhere L P b b')
    (hiff : ∀ a, Q a ↔ P a) : CopiedWhere L Q b b' := fun a => ⟨fun ha => (h a).1 ((hiff a).mp ha),
    fun ha => (h a).2 fun hp => ha ((hiff a).mpr hp)⟩

theorem CopiedWhere.trans {Q R b b' b''} (h : CopiedWhere L P b b')
    (h' : CopiedWhere L Q b' b'') (hR : ∀ a, R a ↔ P a ∨ Q a) : CopiedWhere L R b b'' := by
  intro a
  rw [hR]
  by_cases hq : Q a
  · exact ⟨fun _ => (h' a).1 hq, fun hn => absurd (.inr hq) hn⟩
  · rw [(h' a).2 hq]
    exact ⟨fun ha => (h a).1 (ha.resolve_right hq), fun hn => (h a).2 fun hp => hn (.inl hp)⟩

theorem runs_copyBytes {bytes start len} : Runs E (L.copyBytes bytes start len)
      (CopiedWhere L (fun a => start ≤ a ∧ a < start + len) bytes) := by
  refine fun t => .inl ⟨_, t + len, rfl, fun a => ⟨fun ha => ?_, fun ha => ?_⟩⟩
  · exact ⟨t + (a - start), if_pos ha⟩
  · exact if_neg ha

theorem runs_copyNonAtomicRange (bytes : Mem) (copied stop : Nat) :
    Runs (OnlyDeadline deadline) (L.copyNonAtomicRange deadline bytes copied stop)
      (CopiedWhere L (fun a => copied ≤ a ∧ a < stop) bytes) := by
  induction hn : stop - copied using Nat.strongRecOn generalizing bytes copied with
  | ind n ih =>
    rw [LiveMapping.copyNonAtomicRange]
    refine .ite (fun hlt => ?_) fun hge => ?_
    · refine .bind runs_checkSnapshotDeadline fun _ _ => ?_
      refine .bind runs_copyBytes fun bytes' hcopied => ?_
      simp only [snapshotCopyChunkSize] at hcopied ⊢
      refine (ih _ ?_ bytes' _ rfl).mono fun bytes'' hrest => ?_
      · omega
      · exact hcopied.trans hrest fun a => by omega
    · exact .pure (.none L bytes fun a => by omega)

/-! ## Sections -/

/-- The byte lies in a section the policy allows. -/
def InSections (parts : List (Nat × Nat × Bool)) (a : Nat) : Prop :=
  ∃ part ∈ parts, part.2.2 = true ∧ part.1 ≤ a ∧ a < part.2.1

theorem InSections.lt_total {a} (h : InSections policy.sections a) : a < shmTotalSize := by
  obtain ⟨part, hpart, -, -, hend⟩ := h
  have hfits : part.2.1 ≤ shmTotalSize := by
    simp only [ShmSnapshotPolicy.sections, mem_cons, not_mem_nil, or_false] at hpart
    rcases hpart with rfl | rfl | rfl | rfl | rfl | rfl <;>
      simp [section1Offset, section1Size, section2Offset, section2Size]
  omega

theorem runs_copySection {bytes start stop part} :
    Runs (OnlyDeadline deadline) (L.copySection deadline start stop bytes part) (CopiedWhere L
        (fun a => (start ≤ a ∧ a < stop) ∧ InSections [part] a) bytes) := by
  refine .ite (fun h => ?_) fun h => ?_
  · refine (runs_copyNonAtomicRange bytes _ _).mono fun bytes' hcopied => ?_
    refine hcopied.congr fun a => ?_
    simp only [InSections, mem_singleton, exists_eq_left, h.1, true_and]
    omega
  · refine .pure (.none L bytes fun a ha => h ?_)
    simp only [InSections, mem_singleton, exists_eq_left] at ha
    exact ⟨ha.2.1, by omega⟩

theorem runs_copySelectedNonAtomicRange {bytes start stop} :
    Runs (OnlyDeadline deadline) (L.copySelectedNonAtomicRange deadline policy bytes start stop)
      (CopiedWhere L (fun a => (start ≤ a ∧ a < stop) ∧ InSections policy.sections a) bytes) := by
  refine .foldlM (fun done => CopiedWhere L
    (fun a => (start ≤ a ∧ a < stop) ∧ InSections done a) bytes) ?_ ?_
  · exact .none L bytes fun a ha => by
      obtain ⟨_, _, hmem, _⟩ := ha
      cases hmem
  intro done part rest bytes' _ hdone
  refine (runs_copySection).mono fun bytes'' hpart => ?_
  refine hdone.trans hpart fun a => ?_
  simp only [InSections, mem_append, or_and_right, exists_or, and_or_left]

/-! ## Atomic words -/

/-- The byte belongs to the word. -/
def LiveAtomicWord.Holds (word : LiveAtomicWord) (a : Nat) : Prop :=
  word.offset ≤ a ∧ a < word.offset + word.width

theorem mem_liveAtomicWords :
    word ∈ liveAtomicWords ↔
      word = ⟨registryGenerationOffset, 4⟩ ∨
      word = ⟨contextGenerationOffset, 4⟩ ∨
      word = ⟨settingsGenerationOffset, 4⟩ ∨
      word = ⟨attachmentsGenerationOffset, 4⟩ ∨
      word = ⟨producerReadyOffset, 4⟩ ∨
      (∃ i < 8, word = ⟨ringOffset i + ringGenerationOffset, 4⟩) ∨
      word = ⟨ringCountOffset, 4⟩ ∨ word = ⟨heartbeatOffset, 8⟩ ∨
      (∃ i < 96, word = ⟨screenshotGenerationsOffset + i * 4, 4⟩) := by
  simp only [liveAtomicWords, mem_append, mem_cons, mem_map,
    mem_range, crumbMaxThreads, screenshotSlots, not_mem_nil, or_false, or_assoc, @eq_comm _ _ word]

/-- The words stand in address order and do not overlap. -/
theorem liveAtomicWords_sorted :
    liveAtomicWords.Pairwise fun v w => v.offset + v.width ≤ w.offset := by
  decide +kernel

theorem LiveAtomicWord.fits (h : word ∈ liveAtomicWords) :
    word.offset + word.width ≤ shmTotalSize ∧ word.offset % word.width = 0 := by
  rw [mem_liveAtomicWords] at h
  rcases h with rfl | rfl | rfl | rfl | rfl | ⟨i, hi, rfl⟩ | rfl | rfl | ⟨i, hi, rfl⟩
  case inr.inr.inr.inr.inr.inl =>
    simp only [ringOffset, ringsOffset, crumbRingSize, ringGenerationOffset, shmTotalSize]
    omega
  case inr.inr.inr.inr.inr.inr.inr.inr =>
    simp
    omega
  all_goals exact ⟨by decide, rfl⟩

theorem runs_copyAtomicWord (hlen : shmTotalSize ≤ L.len) (hword : word ∈ liveAtomicWords)
    {bytes} : Runs E (L.copyAtomicWord bytes word) (CopiedWhere L word.Holds bytes) := by
  obtain ⟨hfit, halign⟩ := LiveAtomicWord.fits hword
  refine .bind (runs_loadAtomicAt (Nat.le_trans hfit hlen) halign) ?_
  rintro _ ⟨t, rfl⟩
  refine .pure fun a => ⟨fun ha => ⟨t, ?_⟩, fun ha => ?_⟩
  · exact Mem.store_load_inside ha.1 ha.2
  · exact Mem.store_outside (by simp only [LiveAtomicWord.Holds] at ha; omega)

/-! ## The whole copy -/

/-- A byte the policy lets the snapshot read: a permitted atomic word, or a
byte outside the atomic words in an allowed section. -/
def Readable (policy : ShmSnapshotPolicy) (a : Nat) : Prop :=
  (∃ word ∈ liveAtomicWords, word.Holds a ∧
      policy.allowsAtomic word.offset = true) ∨
    ((∀ word ∈ liveAtomicWords, ¬ word.Holds a) ∧ InSections policy.sections a)

section Words

variable {done rest : List LiveAtomicWord} {word v : LiveAtomicWord} {a : Nat}

section

variable (h : liveAtomicWords = done ++ word :: rest)

include h

theorem end_le_of_before (hv : v ∈ done) : v.offset + v.width ≤ word.offset := by
  have hsorted := liveAtomicWords_sorted
  rw [h, pairwise_append] at hsorted
  exact hsorted.2.2 v hv word (by simp)

theorem end_le_of_after (hv : v ∈ rest) : word.offset + word.width ≤ v.offset := by
  have hsorted := liveAtomicWords_sorted
  rw [h, pairwise_append, pairwise_cons] at hsorted
  exact hsorted.2.1.1 v hv

/-- A byte between two neighbouring words belongs to no word. -/
theorem not_holds_of_gap (hdone : ∀ v ∈ done, v.offset + v.width ≤ a) (ha : a < word.offset) :
    ∀ v ∈ liveAtomicWords, ¬ v.Holds a := by
  rintro v hv ⟨h1, h2⟩
  rw [h, mem_append, mem_cons] at hv
  rcases hv with hv | rfl | hv
  · have := hdone v hv
    omega
  · omega
  · have := end_le_of_after h hv
    omega

/-- A byte belongs to at most one word. -/
theorem readable_of_holds (ha : word.Holds a) :
    Readable policy a ↔ policy.allowsAtomic word.offset = true := by
  have hmem : word ∈ liveAtomicWords := by rw [h]; simp
  obtain ⟨h1, h2⟩ := ha
  constructor
  · rintro (⟨v, hv, ⟨h3, h4⟩, hallow⟩ | ⟨hnone, -⟩)
    · rw [h, mem_append, mem_cons] at hv
      rcases hv with hv | rfl | hv
      · have := end_le_of_before h hv
        omega
      · exact hallow
      · have := end_le_of_after h hv
        omega
    · exact absurd ⟨h1, h2⟩ (hnone word hmem)
  · intro hallow
    exact .inl ⟨word, hmem, ⟨h1, h2⟩, hallow⟩

end

theorem readable_of_gap (hnone : ∀ v ∈ liveAtomicWords, ¬ v.Holds a) :
    Readable policy a ↔ InSections policy.sections a := by
  constructor
  · rintro (⟨v, hv, hva, -⟩ | ⟨-, hin⟩)
    · exact absurd hva (hnone v hv)
    · exact hin
  · exact fun hin => .inr ⟨hnone, hin⟩

end Words

/-- The copy loop after the words `done`: the cursor stands right behind the
last of them, and exactly the readable bytes below it are copied. -/
structure CopiedUpTo (L : LiveMapping) (policy : ShmSnapshotPolicy)
    (done : List LiveAtomicWord) (state : Mem × Nat) : Prop where
  bound : ∀ v ∈ done, v.offset + v.width ≤ state.2
  tight : state.2 = 0 ∨ ∃ v ∈ done, state.2 = v.offset + v.width
  copied : CopiedWhere L (fun a => a < state.2 ∧ Readable policy a) (fun _ => 0) state.1

theorem runs_copyWord (hlen : shmTotalSize ≤ L.len) {done rest}
    (hwords : liveAtomicWords = done ++ word :: rest) {state}
    (h : CopiedUpTo L policy done state) :
    Runs (OnlyDeadline deadline) (L.copyWord deadline policy state word)
      (CopiedUpTo L policy (done ++ [word])) := by
  have hmem : word ∈ liveAtomicWords := by rw [hwords]; simp
  have hcursor : state.2 ≤ word.offset := by
    rcases h.tight with hzero | ⟨v, hv, hend⟩
    · omega
    · rw [hend]
      exact end_le_of_before hwords hv
  refine .bind runs_copySelectedNonAtomicRange fun bytes hgap => ?_
  refine .bind runs_checkSnapshotDeadline fun _ _ => ?_
  have hbelow := h.copied.trans hgap
    (R := fun a => a < word.offset ∧ Readable policy a) (fun a => by
      by_cases hlt : a < state.2
      · simp only [hlt, true_and, show ¬ state.2 ≤ a by omega, false_and,
          or_false, show a < word.offset by omega]
      by_cases hoff : a < word.offset
      · rw [readable_of_gap (not_holds_of_gap hwords (fun v hv =>
          Nat.le_trans (h.bound v hv) (by omega)) hoff)]
        simp only [hlt, hoff, false_and, true_and, false_or, and_true,
          show state.2 ≤ a by omega]
      · simp only [hlt, hoff, false_and, and_false, or_self])
  have hword : Runs (OnlyDeadline deadline)
      (if policy.allowsAtomic word.offset then L.copyAtomicWord bytes word
        else pure bytes)
      (CopiedWhere L (fun a => word.Holds a ∧ Readable policy a) bytes) := by
    refine .ite (fun hallow => ?_) fun hdeny => ?_
    · refine (runs_copyAtomicWord hlen hmem).mono fun bytes' hw => ?_
      exact hw.congr fun a => ⟨.left, fun ha => ⟨ha, (readable_of_holds hwords ha).mpr hallow⟩⟩
    · refine .pure (.none L bytes fun a ha => hdeny ?_)
      exact (readable_of_holds hwords ha.1).mp ha.2
  refine .bind hword fun bytes' hw => .pure ⟨?_, ?_, ?_⟩
  · intro v hv
    rcases mem_append.mp hv with hv | hv
    · have := end_le_of_before hwords hv
      simp only
      omega
    · have hlast := mem_singleton.mp hv
      subst hlast
      exact Nat.le_refl _
  · exact .inr ⟨word, by simp, rfl⟩
  · refine hbelow.trans hw fun a => ?_
    simp only [LiveAtomicWord.Holds]
    by_cases hr : Readable policy a
    · simp only [hr, and_true]
      omega
    · simp only [hr, and_false, or_self]

/-- **The copy.** Exactly the readable bytes are copied, each as it was at
some moment; every other byte is zero. -/
theorem runs_copyAll (hlen : shmTotalSize ≤ L.len) :
    Runs (OnlyDeadline deadline) (L.copyAll deadline policy)
      (CopiedWhere L (Readable policy) fun _ => 0) := by
  refine .bind (.foldlM (CopiedUpTo L policy) ?_ ?_) ?_
  · exact ⟨by simp, .inl rfl, .none L _ fun a => by simp⟩
  · intro done word rest state hwords h
    exact runs_copyWord hlen hwords h
  rintro ⟨bytes, cursor⟩ h
  refine (runs_copySelectedNonAtomicRange).mono ?_
  intro bytes' hgap
  refine h.copied.trans hgap fun a => ?_
  by_cases hlt : a < cursor
  · simp only [hlt, true_and, show ¬ cursor ≤ a by omega, false_and, or_false]
  have hnone : ∀ v ∈ liveAtomicWords, ¬ v.Holds a := by
    rintro v hv ⟨-, h2⟩
    have := h.bound v hv
    omega
  rw [readable_of_gap hnone]
  simp only [hlt, false_and, false_or, show cursor ≤ a by omega, true_and]
  exact ⟨fun hin => ⟨hin.lt_total, hin⟩, And.right⟩

/-! ## All observations -/

/-- What a snapshot may have seen. -/
structure Observed (L : LiveMapping) (policy : ShmSnapshotPolicy) (seen : Observation) : Prop where
  before : LoadedState L policy seen.before
  bytes : CopiedWhere L (Readable policy) (fun _ => 0) seen.bytes
  after : LoadedState L policy seen.after
  heartbeat : policy.context = true → ∃ t, seen.heartbeat = (L.live t).load heartbeatOffset 8

theorem runs_observeAll (hlen : shmTotalSize ≤ L.len) :
    Runs (OnlyDeadline deadline) (L.observeAll deadline policy) (Observed L policy) := by
  refine .bind (runs_loadPublicationState hlen) fun before hbefore => ?_
  refine .bind (runs_copyAll hlen) fun bytes hbytes => ?_
  refine .bind (runs_loadPublicationState hlen) fun after hafter => ?_
  have hbeat : Runs (OnlyDeadline deadline) (if policy.context then do
        let value ← L.loadAtomicU64At heartbeatOffset
        pure (value.getD 0) else pure 0)
      fun value => policy.context = true → ∃ t, value = (L.live t).load heartbeatOffset 8 := by
    refine .ite (fun _ => ?_) fun h => .pure fun h' => absurd h' h
    refine .bind (runs_loadAtomicAt (Nat.le_trans (by decide) hlen) rfl) ?_
    rintro _ ⟨t, rfl⟩
    exact .pure fun _ => ⟨t, rfl⟩
  refine .bind hbeat fun heartbeat hheartbeat => ?_
  exact .pure ⟨hbefore, hbytes, hafter, hheartbeat⟩

/-! ## Which bytes are read -/

/-- A generation word of the header. -/
def HeaderGeneration (a : Nat) : Prop :=
  (registryGenerationOffset ≤ a ∧ a < registryGenerationOffset + 4) ∨
    (contextGenerationOffset ≤ a ∧ a < attachmentsGenerationOffset + 4)

/-- What a policy shows, by section: the header but its generations, the
footer, and each allowed section with the generations that belong to it. -/
def ShmSnapshotPolicy.Visible (policy : ShmSnapshotPolicy) (a : Nat) : Prop :=
  (a < section1Size ∧ ¬ HeaderGeneration a) ∨
  (policy.breadcrumbs = true ∧
    ((registryGenerationOffset ≤ a ∧ a < registryGenerationOffset + 4) ∨
      (section2Offset ≤ a ∧ a < section2Offset + section2Size))) ∨
  (policy.context = true ∧
    ((contextGenerationOffset ≤ a ∧ a < settingsGenerationOffset + 4) ∨
      (contextOffset ≤ a ∧ a < attachmentOffset))) ∨
  (policy.attachments = true ∧
    ((attachmentsGenerationOffset ≤ a ∧ a < attachmentsGenerationOffset + 4) ∨
      (attachmentOffset ≤ a ∧ a < section4Offset))) ∨
  (policy.screenshots = true ∧ section4Offset ≤ a ∧ a < footerOffset) ∨
  (footerOffset ≤ a ∧ a < shmTotalSize)

open ShmSnapshotPolicy

theorem allowsAtomic_ring {i} (hi : i < 8) :
    policy.allowsAtomic (ringOffset i + ringGenerationOffset) = policy.breadcrumbs := by
  rw [allowsAtomic, if_neg, if_neg, if_neg, if_neg, if_pos]
  all_goals
    simp only [ringOffset, ringsOffset, crumbRingSize, ringGenerationOffset,
      registryGenerationOffset, ringCountOffset, contextGenerationOffset,
      settingsGenerationOffset, heartbeatOffset, attachmentsGenerationOffset,
      producerReadyOffset, section2Offset, section2Size]
    omega

theorem allowsAtomic_screenshot {i} (hi : i < 96) :
    policy.allowsAtomic (screenshotGenerationsOffset + i * 4) = policy.screenshots := by
  rw [allowsAtomic, if_neg, if_neg, if_neg, if_neg, if_neg,
    if_pos]
  all_goals
    simp
    omega

section Visible

variable {a : Nat}

theorem visible_breadcrumbs
    (h : (registryGenerationOffset ≤ a ∧ a < registryGenerationOffset + 4) ∨
      (section2Offset ≤ a ∧ a < section2Offset + section2Size)) :
    policy.Visible a ↔ policy.breadcrumbs = true := by
  simp [Visible, HeaderGeneration] at h ⊢
  grind

theorem visible_context
    (h : (contextGenerationOffset ≤ a ∧ a < settingsGenerationOffset + 4) ∨
      (contextOffset ≤ a ∧ a < attachmentOffset)) : policy.Visible a ↔ policy.context = true := by
  simp [Visible, HeaderGeneration] at h ⊢
  grind

theorem visible_attachments
    (h : (attachmentsGenerationOffset ≤ a ∧
        a < attachmentsGenerationOffset + 4) ∨ (attachmentOffset ≤ a ∧ a < section4Offset)) :
    policy.Visible a ↔ policy.attachments = true := by
  simp [Visible, HeaderGeneration] at h ⊢
  grind

theorem visible_screenshots (h : section4Offset ≤ a ∧ a < footerOffset) :
    policy.Visible a ↔ policy.screenshots = true := by
  simp [Visible, HeaderGeneration] at h ⊢
  grind

theorem visible_header (h : a < section1Size) (hgen : ¬ HeaderGeneration a) : policy.Visible a :=
  .inl ⟨h, hgen⟩

/-- A word is visible exactly if the policy permits its load. -/
theorem visible_iff_of_word {word} (hword : word ∈ liveAtomicWords) (ha : word.Holds a) :
    policy.Visible a ↔ policy.allowsAtomic word.offset = true := by
  rw [mem_liveAtomicWords] at hword
  obtain ⟨h1, h2⟩ := ha
  rcases hword with rfl | rfl | rfl | rfl | rfl | ⟨i, hi, rfl⟩ | rfl | rfl | ⟨i, hi, rfl⟩
  · exact visible_breadcrumbs (.inl ⟨h1, h2⟩)
  · refine visible_context (.inl ⟨h1, ?_⟩)
    simp at h2 ⊢
    omega
  · refine visible_context (.inl ⟨?_, h2⟩)
    simp at h1 ⊢
    omega
  · exact visible_attachments (.inl ⟨h1, h2⟩)
  · refine iff_of_true (visible_header ?_ ?_) rfl
    all_goals
      simp [HeaderGeneration] at h1 h2 ⊢
      omega
  · rw [allowsAtomic_ring hi]
    refine visible_breadcrumbs (.inr ?_)
    simp at h1 h2 ⊢
    omega
  · refine visible_breadcrumbs (.inr ?_)
    simp at h1 h2 ⊢
    omega
  · refine visible_context (.inr ⟨h1, ?_⟩)
    simp at h2 ⊢
    omega
  · rw [allowsAtomic_screenshot hi]
    refine visible_screenshots ?_
    simp at h1 h2 ⊢
    omega

/-- The two permission tests of the source, for words and for ranges, come to
the same thing as the division into sections. -/
theorem readable_iff_visible : Readable policy a ↔ policy.Visible a := by
  by_cases hword : ∃ word ∈ liveAtomicWords, word.Holds a
  · obtain ⟨word, hmem, hholds⟩ := hword
    obtain ⟨done, rest, hsplit⟩ := append_of_mem hmem
    rw [readable_of_holds hsplit hholds, visible_iff_of_word hmem hholds]
  have hnone : ∀ word ∈ liveAtomicWords, ¬ word.Holds a :=
    fun word hmem hholds => hword ⟨word, hmem, hholds⟩
  have hgen : ¬ HeaderGeneration a := by
    intro hgen
    have h16 := hnone ⟨registryGenerationOffset, 4⟩ (by decide)
    have h32 := hnone ⟨contextGenerationOffset, 4⟩ (by decide)
    have h36 := hnone ⟨settingsGenerationOffset, 4⟩ (by decide)
    have h40 := hnone ⟨attachmentsGenerationOffset, 4⟩ (by decide)
    simp [LiveAtomicWord.Holds, HeaderGeneration] at *
    omega
  rw [readable_of_gap hnone]
  simp [InSections, ShmSnapshotPolicy.sections, Visible, HeaderGeneration] at hgen ⊢
  grind

end Visible

end CrashMonitor.Shm
