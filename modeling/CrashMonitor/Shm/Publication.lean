import CrashMonitor.Shm.Producer

/-!
# Shared memory — publications under any interleaving

Every SDK call follows the seqlock discipline: it claims a unit before it
touches the unit's payload, writes nothing else, and holds nothing when it
returns. By the invariant rule for runs, `Owned` then holds however many
producer threads run and wherever the run is stopped.
-/

namespace CrashMonitor.Shm

open Bytes Interleave SharedMemory Seqlock List PublicationUnit

variable {ι : Type} [DecidableEq ι] {m₀ : Mem}
variable {a token registryOdd : Nat} {bs : List UInt8} {α : Type}

/-- A program that is safe for a producer thread. -/
abbrev SafeProducer (ι : Type) [DecidableEq ι] (m₀ : Mem) {α : Type}
    (r : Claims PublicationUnit) (p : MemProg α)
    (post : α → Claims PublicationUnit → Prop) : Prop := Safe publicationLayout.step
    (publicationLayout.Owned m₀ :
      Shared PublicationUnit → (ι → Claims PublicationUnit) → Prop) r p post

variable {r : Claims PublicationUnit} {u : PublicationUnit} {c : Claim}

/-! ## Single steps -/

theorem safe_load {a width} : SafeProducer ι m₀ r (load a width) fun v r' =>
      r' = r ∧ v < 256 ^ width ∧ ∀ u c, r u = some c → (∀ k, a ≤ k → k < a + width → u.Payload k) →
          v = c.view.load a width := publicationLayout.allowed_load a width

theorem safe_store (hc : r u = some c) (hin : ∀ k, a ≤ k → k < a + bs.length → u.Payload k) :
    SafeProducer ι m₀ r (.op (S := memSig) (.store a bs)) fun _ r' =>
      r' = setClaim r u (some ⟨c.token, c.view.write a bs⟩) :=
  publicationLayout.allowed_store hc hin

/-- One claim attempt. -/
theorem safe_tryBegin (u : PublicationUnit) :
    SafeProducer ι m₀ r (sutShmSeqlockTryBegin u.generation) fun res r' =>
      (res = none ∧ r' = r) ∨
        ∃ c, res = some c.token ∧ c.token ≠ 0 ∧ r' = setClaim r u (some c) := by
  refine .seq safe_load ?_
  rintro observed r' ⟨rfl, -, -⟩
  split
  · exact .inl ⟨rfl, rfl⟩
  refine .call (publicationLayout.allowed_cas u (by omega)) ?_
  rintro ok r'' (⟨rfl, -, view, rfl⟩ | ⟨rfl, rfl⟩)
  · exact .inr ⟨⟨observed + 1, view⟩, rfl, Nat.succ_ne_zero _, rfl⟩
  · exact .inl ⟨rfl, rfl⟩

theorem safe_end (hc : r u = some c) :
    SafeProducer ι m₀ r (sutShmSeqlockEnd u.generation c.token) fun _ r' =>
      r' = setClaim r u none := publicationLayout.allowed_release hc

/-! ## Writers of one unit -/

/-- The claim on `u` with token `token` is kept, and nothing else changes
hands. -/
def Keeps (u : PublicationUnit) (token : Nat) (r r' : Claims PublicationUnit) : Prop :=
  ∃ view, r' = setClaim r u (some ⟨token, view⟩)

theorem Keeps.claim {r r'} (h : Keeps u token r r') : ∃ view, r' u = some ⟨token, view⟩ := by
  obtain ⟨view, rfl⟩ := h
  exact ⟨view, setClaim_self ..⟩

theorem Keeps.trans {r r' r''} (h : Keeps u token r r')
    (h' : Keeps u token r' r'') : Keeps u token r r'' := by
  obtain ⟨_, rfl⟩ := h
  obtain ⟨view, rfl⟩ := h'
  exact ⟨view, setClaim_setClaim ..⟩

theorem Keeps.refl (hc : r u = some c) : Keeps u c.token r r := ⟨c.view, (setClaim_eq_self hc).symm⟩

/-- While holding `u` the program writes only the payload of `u`. -/
def WritesUnit (ι : Type) [DecidableEq ι] (m₀ : Mem) {α : Type}
    (u : PublicationUnit) (p : MemProg α) : Prop := ∀ r c, r u = some c →
    SafeProducer ι m₀ r p fun _ r' => Keeps u c.token r r'

theorem WritesUnit.bind {β : Type} {p} {f : α → MemProg β}
    (hp : WritesUnit ι m₀ u p) (hf : ∀ a, WritesUnit ι m₀ u (f a)) :
    WritesUnit ι m₀ u (p.bind f) := by
  intro r c hc
  refine .seq (hp r c hc) ?_
  intro a r' hkeep
  obtain ⟨view, hview⟩ := hkeep.claim
  exact (hf a r' _ hview).mono fun _ _ => hkeep.trans

theorem writesUnit_ret {a} : WritesUnit ι m₀ u (.ret a : MemProg α) := fun _ _ hc => .refl hc

theorem writesUnit_load {a width} : WritesUnit ι m₀ u (load a width) := by
  intro r c hc
  refine (safe_load).mono ?_
  rintro v r' ⟨rfl, -⟩
  exact .refl hc

theorem writesUnit_store (hin : ∀ k, a ≤ k → k < a + bs.length → u.Payload k) :
    WritesUnit ι m₀ u (.op (S := memSig) (.store a bs)) :=
  fun _ c hc => (safe_store hc hin).mono fun _ _ h => ⟨c.view.write a bs, h⟩

theorem writesUnit_storeWord {width n} (hin : ∀ k, a ≤ k → k < a + width → u.Payload k) :
    WritesUnit ι m₀ u (storeWord a width n) := writesUnit_store (by rwa [toLE_length])

theorem writesUnit_storeBytes (hin : ∀ k, a ≤ k → k < a + bs.length → u.Payload k) :
    WritesUnit ι m₀ u (storeBytes a bs) := by
  induction bs generalizing a with
  | nil => exact writesUnit_ret
  | cons b bs ih =>
    simp only [length_cons] at hin
    refine .bind (p := .op (S := memSig) (.store a [b])) (writesUnit_store ?_) fun _ => ih ?_
    · intro k h1 h2
      simp only [length_singleton] at h2
      exact hin k h1 (by omega)
    · intro k h1 h2
      exact hin k (by omega) (by omega)

theorem writesUnit_copyText {dst size} {src : CString}
    (hin : ∀ k, dst ≤ k → k < dst + size → u.Payload k) :
    WritesUnit ι m₀ u (crashMonitorCopyText dst size src) := by
  unfold crashMonitorCopyText
  split
  · exact writesUnit_ret
  refine .bind (writesUnit_storeBytes ?_) fun _ => writesUnit_storeBytes ?_
  · intro k h1 h2
    refine hin k h1 ?_
    simp only [length_take] at h2
    split at h2 <;> omega
  · intro k h1 h2
    simp only [length_replicate] at h2
    split at h1 <;> split at h2 <;> exact hin k (by omega) (by omega)

/-- The ring part of a breadcrumb stays inside the ring, whatever the write
index says. -/
theorem writesUnit_writeBreadcrumb (ring : Fin 8) (args : BreadcrumbArgs) :
    WritesUnit ι m₀ (.ring ring) (writeBreadcrumb ring args) := by
  refine .bind writesUnit_load fun writeIdx => ?_
  have hindex : writeIdx % crumbRingCapacity < 512 := Nat.mod_lt _ (by decide)
  have hin : ∀ {a size : Nat}, 64 + ring.val * 32784 ≤ a ∧
      a + size ≤ 64 + ring.val * 32784 + 32780 →
      ∀ k, a ≤ k → k < a + size → (PublicationUnit.ring ring).Payload k := by
    intro a size h k h1 h2
    simp only [Payload, ringOffset, ringsOffset, crumbRingSize, ringGenerationOffset]
    exact ⟨by omega, by omega⟩
  simp only [crumbOffset, ringOffset, ringsOffset, crumbRingSize,
    breadcrumbSize, crumbTimestampOffset, crumbThreadIdOffset,
    crumbCategoryOffset, crumbSeverityOffset, crumbLineOffset,
    crumbFileOffset, crumbMessageOffset, ringTidOffset, ringWriteIdxOffset,
    ringCountFieldOffset, breadcrumbFileLen, breadcrumbMessageLen]
  refine .bind (writesUnit_storeBytes ?_) fun _ => ?_
  · rw [length_replicate]
    exact hin (by omega)
  refine .bind (writesUnit_storeWord (hin (by omega))) fun _ => ?_
  refine .bind (writesUnit_storeWord (hin (by omega))) fun _ => ?_
  refine .bind (writesUnit_storeWord (hin (by omega))) fun _ => ?_
  refine .bind (writesUnit_storeWord (hin (by omega))) fun _ => ?_
  refine .bind (writesUnit_storeWord (hin (by omega))) fun _ => ?_
  refine .bind (writesUnit_copyText (hin (by omega))) fun _ => ?_
  refine .bind (writesUnit_copyText (hin (by omega))) fun _ => ?_
  refine .bind (writesUnit_storeWord (hin (by omega))) fun _ => ?_
  refine .bind (writesUnit_storeWord (hin (by omega))) fun _ => ?_
  refine .bind writesUnit_load fun count => ?_
  exact writesUnit_storeWord (hin (by omega))

/-! ## Calls -/

/-- Holding `u` with token `token`, the program releases it and changes
nothing else. -/
def Closes (ι : Type) [DecidableEq ι] (m₀ : Mem) {α : Type}
    (u : PublicationUnit) (token : Nat) (p : MemProg α) : Prop :=
  ∀ r view, r u = some ⟨token, view⟩ → SafeProducer ι m₀ r p fun _ r' => r' = setClaim r u none

theorem closes_end {u token} {a : α} : Closes ι m₀ u token
      ((sutShmSeqlockEnd u.generation token).bind fun _ => .ret a) := by
  intro r view hc
  exact .seq (safe_end hc) fun _ _ h => h

theorem safe_end_ret {a : α} (hc : r u = some c) : SafeProducer ι m₀ r
      ((sutShmSeqlockEnd u.generation c.token).bind fun _ => .ret a)
      fun _ r' => r' = setClaim r u none := .seq (safe_end hc) fun _ _ h => h

theorem Closes.bind {β : Type} {p} {f : α → MemProg β}
    (hp : WritesUnit ι m₀ u p) (hf : ∀ a, Closes ι m₀ u token (f a)) :
    Closes ι m₀ u token (p.bind f) := by
  intro r view hc
  refine .seq (hp r _ hc) ?_
  rintro a r' ⟨view', rfl⟩
  refine (hf a _ view' (setClaim_self ..)).mono ?_
  rintro _ r' rfl
  exact setClaim_setClaim ..

/-- A claim attempt and a body that releases: nothing is held afterwards
that was not held before. -/
theorem safe_claim {k : Nat → MemProg Int}
    (hk : ∀ token, Closes ι m₀ u token (k token)) (hnone : r u = none) : SafeProducer ι m₀ r
      ((sutShmSeqlockTryBegin u.generation).bind fun odd =>
        match odd with
        | none => .ret 1
        | some odd => k odd)
      fun _ r' => r' = r := by
  refine .seq (safe_tryBegin u) ?_
  rintro res r' (⟨rfl, rfl⟩ | ⟨c, rfl, -, rfl⟩)
  · exact rfl
  refine (hk c.token _ c.view (setClaim_self ..)).mono ?_
  rintro _ r' rfl
  rw [setClaim_setClaim]
  exact setClaim_eq_self hnone

/-- A word of a held payload reads as the holder left it. -/
theorem safe_load_held {view} (hc : r u = some ⟨token, view⟩) {width}
    (hin : ∀ k, a ≤ k → k < a + width → u.Payload k) {f} {post : α → Claims PublicationUnit → Prop}
    (hf : SafeProducer ι m₀ r (f (view.load a width)) post) :
    SafeProducer ι m₀ r ((load a width).bind f) post := by
  refine .seq safe_load ?_
  rintro v r' ⟨rfl, -, hview⟩
  rw [hview u _ hc hin]
  exact hf

theorem safe_ite {p} {inst : Decidable p} {x y}
    {post : α → Claims PublicationUnit → Prop} (hx : p → SafeProducer ι m₀ r x post)
    (hy : ¬p → SafeProducer ι m₀ r y post) : SafeProducer ι m₀ r (if p then x else y) post := by
  by_cases h : p
  · rw [if_pos h]
    exact hx h
  · rw [if_neg h]
    exact hy h

/-- The common end of the calls that add an entry to a table: bump the
count, fill the entry's two texts, release. -/
theorem closes_entry {countAt entry keyLen valueLen n} {key value : CString}
    (hcount : ∀ k, countAt ≤ k → k < countAt + 4 → u.Payload k)
    (hentry : ∀ k, entry ≤ k → k < entry + (keyLen + valueLen) → u.Payload k) :
    Closes ι m₀ u token (do
      storeWord countAt 4 n
      crashMonitorCopyText entry keyLen key
      crashMonitorCopyText (entry + keyLen) valueLen value
      sutShmSeqlockEnd u.generation token
      pure (0 : Int)) := by
  refine .bind (writesUnit_storeWord hcount) fun _ => ?_
  refine .bind (writesUnit_copyText ?_) fun _ => ?_
  · exact fun k h1 h2 => hentry k h1 (by omega)
  refine .bind (writesUnit_copyText ?_) fun _ => ?_
  · exact fun k h1 h2 => hentry k (by omega) (by omega)
  exact closes_end

theorem safe_setAnnotation {key value : CString} :
    SafeProducer ι m₀ (noClaims _) (SdkCall.annotate key value).prog
      fun _ r' => r' = noClaims _ := by
  refine safe_claim (u := .context) (fun token => ?_) rfl
  intro r view hc
  have hcountIn : ∀ k, contextOffset + annotationCountOffset ≤ k →
      k < contextOffset + annotationCountOffset + 4 → Payload .context k := by
    intro k h1 h2
    simp [Payload] at *
    omega
  refine safe_load_held hc hcountIn (safe_ite (fun _ => ?_) fun hroom => ?_)
  · exact safe_end_ret hc
  -- the count is read again; it still is the value just checked
  refine safe_load_held hc hcountIn ?_
  refine closes_entry (u := .context) hcountIn (fun k h1 h2 => ?_) r view hc
  simp [Payload] at *
  omega

theorem safe_registerAttachment {label path : CString} :
    SafeProducer ι m₀ (noClaims _) (crashMonitorRegisterAttachment label path)
      fun _ r' => r' = noClaims _ := by
  refine safe_claim (u := .attachments) (fun token => ?_) rfl
  intro r view hc
  have hcountIn : ∀ k, attachmentOffset ≤ k → k < attachmentOffset + 4 →
      Payload .attachments k := by
    intro k h1 h2
    simp [Payload] at *
    omega
  refine safe_load_held hc hcountIn (safe_ite (fun _ => ?_) fun hroom => ?_)
  · exact safe_end_ret hc
  refine safe_load_held hc hcountIn ?_
  refine closes_entry (u := .attachments) hcountIn (fun k h1 h2 => ?_) r view hc
  simp [Payload] at *
  omega

/-- The version is stored between the two reads of the count, which it does
not overlap. -/
theorem safe_setExtension {key value : CString} :
    SafeProducer ι m₀ (noClaims _) (crashMonitorSetExtension key value)
      fun _ r' => r' = noClaims _ := by
  refine safe_claim (u := .settings) (fun token => ?_) rfl
  intro r view hc
  have hin : ∀ {a : Nat}, settingsOffset ≤ a → a + 4 ≤ settingsOffset + 160 →
      ∀ k, a ≤ k → k < a + 4 → Payload .settings k := by
    intro a h1 h2 k h3 h4
    simp [Payload] at *
    omega
  have hcountIn := @hin (settingsOffset + entryCountOffset) (by simp only [entryCountOffset]; omega)
    (by simp only [entryCountOffset]; omega)
  refine safe_load_held hc hcountIn (safe_ite (fun _ => ?_) fun hroom => ?_)
  · exact safe_end_ret hc
  refine .seq (safe_store hc ?_) ?_
  · rw [toLE_length]
    exact hin (Nat.le_refl _) (by omega)
  rintro - r' rfl
  generalize hview' : view.write settingsOffset (toLE 4 producerExtensionVersion) = view'
  have hsame : view'.load (settingsOffset + entryCountOffset) 4 =
      view.load (settingsOffset + entryCountOffset) 4 := by
    rw [← hview']
    refine Mem.load_write_disjoint ?_
    rw [toLE_length]
    simp only [entryCountOffset]
    omega
  rw [← setClaim_setClaim r .settings (some ⟨token, view'⟩) none]
  refine safe_load_held (setClaim_self ..) hcountIn ?_
  refine closes_entry (u := .settings) hcountIn (fun k h1 h2 => ?_) _ _ (setClaim_self ..)
  simp [Payload] at *
  omega

theorem safe_publishScreenshot {slot : UInt32} {timestampNs : UInt64}
    {tier : UInt32} {rgba : Option (List UInt8)} : SafeProducer ι m₀ (noClaims _)
      (crashMonitorPublishScreenshot slot timestampNs tier rgba) fun _ r' => r' = noClaims _ := by
  cases rgba with
  | none => exact rfl
  | some pixels =>
    refine safe_ite (fun _ => rfl) fun hargs => ?_
    obtain ⟨hslot, hlen⟩ : slot.toNat < 96 ∧ pixels.length = 518400 := by
      simp at hargs
      omega
    refine safe_claim (u := .screenshot ⟨slot.toNat, hslot⟩) (fun token => ?_) rfl
    refine .bind (writesUnit_storeBytes ?_) fun _ => .bind (writesUnit_storeWord ?_) fun _ =>
      .bind (writesUnit_storeWord ?_) fun _ => closes_end
    all_goals
      intro k h1 h2
      simp [Payload] at *
      omega

/-! ## Breadcrumbs, which may hold the registry and a ring at once -/

/-- What `crash_monitor_add_breadcrumb` holds of the registry: nothing if the
token is zero, else exactly the registry. -/
def HoldsRegistry (registryOdd : Nat) (r : Claims PublicationUnit) : Prop :=
  (registryOdd = 0 ∧ r = noClaims _) ∨
    (registryOdd ≠ 0 ∧ ∃ view, r = setClaim (noClaims _) .registry (some ⟨registryOdd, view⟩))

theorem HoldsRegistry.ring_eq_none (h : HoldsRegistry registryOdd r) (ring : Fin 8) :
    r (.ring ring) = none := by
  rcases h with ⟨-, rfl⟩ | ⟨-, view, rfl⟩
  · rfl
  · exact setClaim_of_ne (by simp) _

theorem safe_endRegistry (h : HoldsRegistry registryOdd r) :
    SafeProducer ι m₀ r (endRegistry registryOdd) fun _ r' => r' = noClaims _ := by
  rcases h with ⟨rfl, rfl⟩ | ⟨hne, view, rfl⟩
  · exact rfl
  refine safe_ite (fun _ => ?_) fun h => absurd hne h
  refine (safe_end (u := .registry) (setClaim_self ..)).mono ?_
  rintro _ r' rfl
  rw [setClaim_setClaim]
  exact setClaim_eq_self rfl

/-- `ring_count` is written under the registry's claim. -/
theorem safe_registerRing (h : HoldsRegistry registryOdd r) {ringCount slot}
    (hclaimed : ringCount ≤ slot → registryOdd ≠ 0) :
    SafeProducer ι m₀ r (registerRing ringCount slot) fun _ r' => HoldsRegistry registryOdd r' := by
  refine safe_ite (fun hle => ?_) fun _ => h
  rcases h with ⟨hzero, -⟩ | ⟨hne, view, rfl⟩
  · exact absurd hzero (hclaimed hle)
  have hwrites : WritesUnit ι m₀ .registry (storeWord ringCountOffset 4 (slot + 1)) :=
    writesUnit_storeWord fun k h1 h2 => ⟨h1, h2⟩
  refine (hwrites _ _ (setClaim_self ..)).mono ?_
  rintro _ r' ⟨view', rfl⟩
  exact .inr ⟨hne, view', setClaim_setClaim ..⟩

theorem safe_addBreadcrumbTo {args} (h : HoldsRegistry registryOdd r)
    (hslot : args.threadSlot.toNat < 8) {ringCount}
    (hclaimed : ringCount ≤ args.threadSlot.toNat → registryOdd ≠ 0) :
    SafeProducer ι m₀ r (addBreadcrumbTo args registryOdd ringCount)
      fun _ r' => r' = noClaims _ := by
  have hring := h.ring_eq_none ⟨_, hslot⟩
  refine .seq (safe_tryBegin (.ring ⟨_, hslot⟩)) ?_
  rintro res r' (⟨rfl, rfl⟩ | ⟨c, rfl, -, rfl⟩)
  · exact .seq (safe_endRegistry h) fun _ _ hr => hr
  refine .seq (writesUnit_writeBreadcrumb ⟨_, hslot⟩ args _ c (setClaim_self ..)) ?_
  rintro - r' ⟨view, rfl⟩
  refine .seq (safe_end (u := .ring ⟨_, hslot⟩) (c := ⟨c.token, view⟩) (setClaim_self ..)) ?_
  rintro - r' rfl
  -- the ring is given back; what is left is the registry, if anything
  rw [setClaim_setClaim, setClaim_setClaim, setClaim_eq_self hring]
  refine .seq (safe_registerRing h hclaimed) fun _ r' hr => ?_
  exact .seq (safe_endRegistry hr) fun _ _ hr => hr

theorem safe_addBreadcrumb {args} : SafeProducer ι m₀ (noClaims _) (crashMonitorAddBreadcrumb args)
      fun _ r' => r' = noClaims _ := by
  refine safe_ite (fun _ => rfl) fun hargs => ?_
  have hslot : args.threadSlot.toNat < 8 := Nat.lt_of_not_le fun h => hargs (.inl h)
  refine .seq safe_load ?_
  rintro ringCount r' ⟨rfl, -, -⟩
  refine safe_ite (fun _ => ?_) fun hknown => ?_
  · refine .seq (safe_tryBegin .registry) ?_
    rintro res r' (⟨rfl, rfl⟩ | ⟨c, rfl, hne, rfl⟩)
    · exact rfl
    refine .seq safe_load ?_
    rintro ringCount r' ⟨rfl, -, -⟩
    exact safe_addBreadcrumbTo (.inr ⟨hne, c.view, rfl⟩) hslot fun _ => hne
  · exact safe_addBreadcrumbTo (.inl ⟨rfl, rfl⟩) hslot fun h => absurd h hknown

/-! ## Every call, every run -/

theorem safe_heartbeat : SafeProducer ι m₀ r crashMonitorHeartbeat fun _ r' => r' = r :=
  publicationLayout.allowed_addFetch_free fun _ h1 h2 => .inr ⟨h1, h2⟩

theorem safe_markReady : SafeProducer ι m₀ r crashMonitorMarkReady fun _ r' => r' = r := by
  refine .seq safe_heartbeat ?_
  rintro - r' rfl
  exact publicationLayout.allowed_store_free fun _ h1 h2 => .inl ⟨h1, by rwa [toLE_length] at h2⟩

theorem safe_sdkCall {sdk : SdkCall} :
    SafeProducer ι m₀ (noClaims _) sdk.prog fun _ r' => r' = noClaims _ := by
  cases sdk with
  | addBreadcrumb args => exact safe_addBreadcrumb
  | annotate key value => exact safe_setAnnotation
  | setExtension key value => exact safe_setExtension
  | registerAttachment label path => exact safe_registerAttachment
  | publishScreenshot slot timestampNs tier rgba => exact safe_publishScreenshot
  | heartbeat => exact .seq safe_heartbeat fun _ _ h => h
  | markReady => exact .seq safe_markReady fun _ _ h => h

/-- Producer threads that make SDK calls; a run is stopped by not continuing
it. -/
def producerSystem (ι : Type) : System memSig (Shared PublicationUnit) ι Int where
  step := publicationLayout.step
  start p := ∃ sdk : SdkCall, p = sdk.prog
  crash _ _ _ := False

/-- A mapping before any call, its content taken as published. -/
def Shared.initial (m₀ : Mem) : Shared PublicationUnit := ⟨m₀, fun _ => m₀⟩

/-- **Publication discipline.** However the producer threads interleave and
wherever they stop, every unit is claimed by at most one of them, exactly
while its generation is odd, and an unclaimed unit holds its last completed
publication. -/
theorem producer_reach_owned (heven : ∀ u : PublicationUnit, m₀.load u.generation 4 % 2 = 0)
    {c : Config memSig (Shared PublicationUnit) ι Int}
    (h : (producerSystem ι).Reach (Shared.initial m₀) c) : ∃ ρ : ι → Claims PublicationUnit,
      publicationLayout.Owned m₀ c.shared ρ := by
  obtain ⟨ρ, hinv, -⟩ := h.inv (publicationLayout.owned_init heven) (by
      rintro p ⟨sdk, rfl⟩
      exact safe_sdkCall)
    (by
      intro dead s s' ρ ρ' hcrash
      cases hcrash)
  exact ⟨ρ, hinv⟩

end CrashMonitor.Shm
