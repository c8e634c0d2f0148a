import CrashMonitor.Shm.BreadcrumbOrder
import CrashMonitor.Shm.Texts

/-!
# Shared memory — when the counters wrap

The record counter of a ring and the generation of a screenshot slot are free
running 32-bit words, and the reader takes zero for "nothing there". After any
sequence of SDK calls it therefore looks at `n % 2^32` records of a ring that
took `n`, and skips a slot whose publications are a multiple of `2^31`.
-/

namespace CrashMonitor.Shm

open Bytes List

variable {m m₀ : Mem} {j : Journal} {L : LiveMapping}
variable {policy : ShmSnapshotPolicy} {snapshot : OwnedShmSnapshot}

/-! ## Frames of the journal -/

/-- The frame a call publishes in a slot. -/
def SdkCall.frameFor (slot : Fin 96) : SdkCall → Option Frame
  | .publishScreenshot index timestampNs tier (some pixels) =>
    if index.toNat = slot then some ⟨timestampNs, tier, pixels⟩ else none
  | _ => none

theorem Journal.collects_frames {slot} :
    Collects (fun j => j.frames slot) (SdkCall.frameFor slot) := by
  intro j call
  cases call with
  | publishScreenshot index timestampNs tier rgba =>
    cases rgba with
    | none => simp [step]
    | some pixels =>
      rw [step]
      split
      · next hok =>
          by_cases hslot : index.toNat = slot
          · obtain rfl : (⟨index.toNat, hok.1⟩ : Fin 96) = slot := Fin.ext hslot
            simp [SdkCall.frameFor]
          · have hne : slot ≠ ⟨index.toNat, hok.1⟩ := fun heq => hslot (congrArg Fin.val heq).symm
            simp [SdkCall.frameFor, hslot, Function.update_of_ne hne]
      · simp
  | _ => grind [step, SdkCall.frameFor]

/-! ## The slots the reader finds -/

/-- The generation of a slot counts its publications twice. -/
def generationOf (frames : List Frame) : Nat := 2 * frames.length % 2 ^ 32

theorem generationOf_eq_zero_iff {frames} :
    generationOf frames = 0 ↔ frames.length % 2 ^ 31 = 0 := by
  unfold generationOf
  omega

theorem readGeneration_eq (hshows : snapshot.Shows (policy.mask m))
    (hallows : policy.screenshots = true) (hj : Represents m j) {slot : Fin 96} :
    snapshot.readU32 (screenshotGenerationsOffset + slot * 4) =
      some (generationOf (j.frames slot)) := by
  have hhold : SlotHolds m slot (j.frames slot) := hj.units (.screenshot slot)
  have hword : snapshot.bytes.load (screenshotGenerationsOffset + slot * 4) 4 =
      m.load (screenshotGenerationsOffset + slot * 4) 4 := by
    refine Mem.load_congr fun a h1 h2 => ?_
    rw [(hshows.bytes_of_idle hj.idle).2 a (by simp at *; omega)]
    exact mask_of_visible ((visible_generation (.screenshot slot) h1 h2).mpr hallows)
  have hinside : ¬ (screenshotGenerationsOffset + slot * 4 + 4 >
      snapshot.payloadLen ∨ screenshotGenerationsOffset + slot * 4 + 4 > snapshot.len) := by
    rw [hshows.len, hshows.payloadLen]
    simp
    omega
  rw [OwnedShmSnapshot.readU32, OwnedShmSnapshot.readUnsigned,
    OwnedShmSnapshot.range, if_neg hinside, generationOf, ← hhold.generation, ← hword]
  rfl

/-- The candidate the scan makes of a slot. -/
def shownCandidate (slot : Nat) (frames : List Frame) : Option OwnedShmSnapshot.Candidate :=
  if generationOf frames = 0 then none
  else frames.getLast?.map fun frame => ⟨slot, frame.timestampNs.toNat, frame.tier.toNat⟩

/-- A slot that the scan takes was published. -/
theorem getLast?_of_generation {frames}
    (h : generationOf frames ≠ 0) : ∃ frame, frames.getLast? = some frame := by
  cases hlast : frames.getLast? with
  | none =>
    rw [getLast?_eq_none_iff.mp hlast] at h
    exact absurd rfl h
  | some frame => exact ⟨frame, rfl⟩

theorem scanSlots_eq (hmirrors : snapshot.Mirrors policy m)
    (hshows : snapshot.Shows (policy.mask m))
    (hallows : policy.screenshots = true) (hj : Represents m j) (slots : List (Fin 96)) :
    snapshot.scanSlots (slots.map (·.val)) =
      (slots.filterMap fun i : Fin 96 => shownCandidate i (j.frames i), []) := by
  induction slots with
  | nil => rfl
  | cons i slots ih =>
    have hhold : SlotHolds m i (j.frames i) := hj.units (.screenshot i)
    rw [map_cons, OwnedShmSnapshot.scanSlots, readGeneration_eq hshows hallows hj]
    dsimp only
    rw [ih]
    by_cases hzero : generationOf (j.frames i) = 0
    · have hnone : shownCandidate i (j.frames i) = none := if_pos hzero
      rw [if_pos (.inl hzero), filterMap_cons, hnone]
    obtain ⟨frame, hlast⟩ := getLast?_of_generation hzero
    have heven : ¬ (generationOf (j.frames i) = 0 ∨ generationOf (j.frames i) % 2 ≠ 0) := by
      unfold generationOf at hzero ⊢
      omega
    have htimestamp : snapshot.readU64 (screenshotTimestampsOffset + i * 8) =
        some frame.timestampNs.toNat := by
      rw [← hhold.timestamp frame (by rw [hlast]; rfl)]
      exact hmirrors.readUnsigned (u := .screenshot i) hallows (by decide)
        fun a h1 h2 => .inl ⟨h1, h2⟩
    have htier : snapshot.readU32 (screenshotTiersOffset + i * 4) = some frame.tier.toNat := by
      rw [← hhold.tier frame (by rw [hlast]; rfl)]
      exact hmirrors.readUnsigned (u := .screenshot i) hallows (by decide)
        fun a h1 h2 => .inr (.inl ⟨h1, h2⟩)
    have hsome : shownCandidate i (j.frames i) =
        some ⟨i, frame.timestampNs.toNat, frame.tier.toNat⟩ := by
      rw [shownCandidate, if_neg hzero, hlast]
      rfl
    rw [if_neg heven, htimestamp, htier, filterMap_cons, hsome]

/-! ## What is hidden -/

/-- The reader yields exactly the newest records of every ring. -/
def YieldsNewest (snapshot : OwnedShmSnapshot) (crumbs : Fin 8 → List BreadcrumbArgs) : Prop :=
  ∃ shown, snapshot.readBreadcrumbs.Perm shown ∧ Forall₂ RawBreadcrumb.Of shown
      ((finRange 8).flatMap fun slot => (crumbs slot).rtake crumbRingCapacity)

theorem yieldsNewest_iff (hmirrors : snapshot.Mirrors policy m)
    (hallows : policy.breadcrumbs = true) (hj : Represents m j) :
    YieldsNewest snapshot j.crumbs ↔ ∀ slot,
      min (j.crumbs slot).length crumbRingCapacity ≤
          (j.crumbs slot).length % 2 ^ 32 ∧ ∀ args ∈ (j.crumbs slot).rtake crumbRingCapacity,
          (shownCrumb args).isSome := by
  refine (newest_kept_iff (readBreadcrumbs_perm hmirrors hallows hj)
    fun args _ raw => of_shownCrumb).trans ?_
  constructor
  · rintro ⟨hsome, hcounters⟩ slot
    refine ⟨hcounters slot, fun args hargs => ?_⟩
    exact hsome args (mem_flatMap.mpr ⟨slot, mem_finRange slot, hargs⟩)
  intro h
  refine ⟨fun args hargs => ?_, fun slot => (h slot).1⟩
  obtain ⟨slot, -, hmem⟩ := mem_flatMap.mp hargs
  exact (h slot).2 args hmem

/-- Every slot that was ever published is among the published slots the scan
of `read_screenshots_bounded` finds, with the data of its newest frame. -/
def FindsPublished (snapshot : OwnedShmSnapshot) (frames : Fin 96 → List Frame) : Prop :=
  ∀ slot : Fin 96, ∀ frame ∈ (frames slot).getLast?,
    ⟨slot, frame.timestampNs.toNat, frame.tier.toNat⟩ ∈
      (snapshot.scanSlots (range screenshotSlots)).1

theorem findsPublished_iff (hmirrors : snapshot.Mirrors policy m)
    (hshows : snapshot.Shows (policy.mask m))
    (hallows : policy.screenshots = true) (hj : Represents m j) :
    FindsPublished snapshot j.frames ↔
      ∀ slot, j.frames slot ≠ [] → (j.frames slot).length % 2 ^ 31 ≠ 0 := by
  have hall : range screenshotSlots = (finRange 96).map (·.val) := by decide
  rw [FindsPublished, hall, scanSlots_eq hmirrors hshows hallows hj]
  refine forall_congr' fun slot => ?_
  simp only [mem_filterMap, mem_finRange, true_and]
  constructor
  · intro h hne
    obtain ⟨frame, hlast⟩ := Option.isSome_iff_exists.mp (getLast?_isSome.mpr hne)
    obtain ⟨i, hi⟩ := h frame hlast
    intro hcount
    have hzero := (generationOf_eq_zero_iff).mpr hcount
    -- the candidate's index is the slot, and its generation was not zero
    rw [shownCandidate] at hi
    split at hi
    · cases hi
    next hfound =>
    obtain ⟨other, -, heq⟩ := Option.map_eq_some_iff.mp hi
    have hindex : i = slot := Fin.ext (congrArg OwnedShmSnapshot.Candidate.index heq)
    rw [hindex] at hfound
    exact hfound hzero
  · intro h frame hlast
    have hne : j.frames slot ≠ [] := by
      intro hnil
      rw [hnil] at hlast
      cases hlast
    refine ⟨slot, ?_⟩
    rw [shownCandidate, if_neg (mt (generationOf_eq_zero_iff).mp (h hne)), Option.mem_def.mp hlast]
    rfl

/-! ## After any run of calls -/

/-- The breadcrumbs a run added to a slot, oldest first. -/
def addedCrumbs (calls : List SdkCall) (m : Mem) (slot : Fin 8) : List BreadcrumbArgs :=
  (acceptedCalls calls m).filterMap (SdkCall.crumbFor slot)

/-- The frames a run published in a slot, oldest first. -/
def publishedFrames (calls : List SdkCall) (m : Mem) (slot : Fin 96) : List Frame :=
  (acceptedCalls calls m).filterMap (SdkCall.frameFor slot)

theorem runCalls_added (hm : FreshMapping m₀) (calls : List SdkCall) :
    ∃ j, Represents (runCalls calls m₀).2 j ∧
      j.crumbs = addedCrumbs calls m₀ ∧ j.frames = publishedFrames calls m₀ := by
  obtain ⟨hstatus, hrep⟩ := runCalls_represents hm.represents calls
  refine ⟨_, hrep, funext fun slot => ?_, funext fun slot => ?_⟩
  · rw [addedCrumbs, acceptedCalls, hstatus]
    exact (Journal.collects_crumbs slot).runCalls _ _
  · rw [publishedFrames, acceptedCalls, hstatus]
    exact (Journal.collects_frames).runCalls _ _

/-- **Counter wrap-around.** After any run of calls the reader yields the
newest records of every ring exactly if no counter has wrapped to less than
its ring holds and each of these records is readable, and it finds every
published slot exactly if no slot was published a multiple of `2^31` times. -/
theorem counters_hide_nothing_iff (hm : FreshMapping m₀) (calls : List SdkCall)
    (hL : L.Suspended (runCalls calls m₀).2)
    (hcrumbs : policy.breadcrumbs = true) (hscreens : policy.screenshots = true)
    {deadline : Option Nat} (hok : L.snapshotOwnedUntilWithPolicy deadline policy = .ok snapshot) :
    (YieldsNewest snapshot (addedCrumbs calls m₀) ↔ ∀ slot,
      min (addedCrumbs calls m₀ slot).length crumbRingCapacity ≤
          (addedCrumbs calls m₀ slot).length % 2 ^ 32 ∧
        ∀ args ∈ (addedCrumbs calls m₀ slot).rtake crumbRingCapacity,
          (shownCrumb args).isSome) ∧
    (FindsPublished snapshot (publishedFrames calls m₀) ↔
      ∀ slot, publishedFrames calls m₀ slot ≠ [] →
        (publishedFrames calls m₀ slot).length % 2 ^ 31 ≠ 0) := by
  obtain ⟨j, hrep, hjcrumbs, hjframes⟩ := runCalls_added hm calls
  have hshows := hrep.shows hL hok
  have hmirrors := hshows.mirrors hrep.idle
  rw [← hjcrumbs, ← hjframes]
  exact ⟨yieldsNewest_iff hmirrors hcrumbs hrep, findsPublished_iff hmirrors hshows hscreens hrep⟩

/-! ## The wraps -/

/-- Calls that are always accepted. -/
theorem acceptedCalls_of_accepted (hm : FreshMapping m₀) {calls}
    (hcalls : ∀ call ∈ calls, ∀ j : Journal, (j.step call).1 = 0) :
    acceptedCalls calls m₀ = calls := by
  have hjournal : ∀ j : Journal, ∀ status ∈ (j.runCalls calls).1, status = 0 := by
    induction calls with
    | nil => intro j; simp [Journal.runCalls]
    | cons call calls ih =>
      intro j
      rw [forall_mem_cons] at hcalls
      exact forall_mem_cons.mpr ⟨hcalls.1 j, ih hcalls.2 _⟩
  refine acceptedOf_eq_self (runCalls_statuses_length _ _) ?_
  rw [(runCalls_represents hm.represents _).1]
  exact hjournal _

theorem acceptedCalls_replicate (hm : FreshMapping m₀) {call}
    (hcall : ∀ j : Journal, (j.step call).1 = 0) (n : Nat) :
    acceptedCalls (replicate n call) m₀ = replicate n call :=
  acceptedCalls_of_accepted hm fun _ hmem => eq_of_mem_replicate hmem ▸ hcall

/-- A frame of the right size. -/
def blankFrame : Frame := ⟨7, 0, replicate screenshotBytesPerSlot 0⟩

def publishBlank : SdkCall := .publishScreenshot 0 blankFrame.timestampNs blankFrame.tier
    (some blankFrame.pixels)

theorem publishBlank_accepted (j : Journal) : (j.step publishBlank).1 = 0 := by
  have hok : (0 : UInt32).toNat < screenshotSlots ∧
      blankFrame.pixels.length = screenshotBytesPerSlot := ⟨by decide, length_replicate⟩
  rw [publishBlank, Journal.step, dif_pos hok]

theorem addPlain_accepted (j : Journal) : (j.step (.addBreadcrumb (plainRecord 0 5 1))).1 = 0 := by
  rw [Journal.step, dif_pos (by decide)]

/-- Two records and a frame. -/
def shownCalls : List SdkCall :=
  [.addBreadcrumb (plainRecord 0 5 1), publishBlank, .addBreadcrumb (plainRecord 0 5 1)]

theorem acceptedCalls_shownCalls : acceptedCalls shownCalls createdMapping = shownCalls := by
  apply acceptedCalls_of_accepted createdMapping_fresh
  simp only [shownCalls, forall_mem_cons]
  exact ⟨addPlain_accepted, publishBlank_accepted, addPlain_accepted, by simp⟩

/-- The reader finds them. -/
theorem records_and_frame_shown : ∃ snapshot,
    (heldMapping (runCalls shownCalls createdMapping).2).snapshotOwnedUntilWithPolicy none .all =
      .ok snapshot ∧ YieldsNewest snapshot (addedCrumbs shownCalls createdMapping) ∧
    FindsPublished snapshot (publishedFrames shownCalls createdMapping) := by
  obtain ⟨j, hrep, -, -⟩ := runCalls_added createdMapping_fresh shownCalls
  obtain ⟨snapshot, hok⟩ := (hrep.snapshots (heldMapping_suspended _) .all).1
  have hiff := counters_hide_nothing_iff createdMapping_fresh shownCalls
    (heldMapping_suspended _) rfl rfl hok
  refine ⟨snapshot, hok, hiff.1.mpr fun slot => ?_, hiff.2.mpr fun slot hsome => ?_⟩
  · rw [addedCrumbs, acceptedCalls_shownCalls]
    have hlength : (shownCalls.filterMap (SdkCall.crumbFor slot)).length ≤ 3 :=
      length_filterMap_le _ _
    refine ⟨by simp only [crumbRingCapacity]; omega, fun args hargs => ?_⟩
    obtain ⟨call, hcall, hcrumb⟩ := mem_filterMap.mp (drop_subset _ _ hargs)
    have hadded : call = .addBreadcrumb args := by
      cases call with
      | addBreadcrumb other =>
        rw [SdkCall.crumbFor] at hcrumb
        split at hcrumb <;> cases hcrumb
        rfl
      | _ => cases hcrumb
    have hplain : args = plainRecord 0 5 1 := by
      simpa [hadded, shownCalls, publishBlank] using hcall
    rw [hplain]
    decide +kernel
  · rw [publishedFrames, acceptedCalls_shownCalls] at hsome ⊢
    have hlength : (shownCalls.filterMap (SdkCall.frameFor slot)).length ≤ 3 :=
      length_filterMap_le _ _
    have := length_pos_iff.mpr hsome
    omega

theorem addedCrumbs_replicate (n : Nat) :
    addedCrumbs (replicate n (.addBreadcrumb (plainRecord 0 5 1)))
      createdMapping 0 = replicate n (plainRecord 0 5 1) := by
  have hcrumb : SdkCall.crumbFor 0 (.addBreadcrumb (plainRecord 0 5 1)) =
      some (plainRecord 0 5 1) := rfl
  rw [addedCrumbs, acceptedCalls_replicate createdMapping_fresh addPlain_accepted,
    filterMap_replicate_of_some hcrumb]

theorem publishedFrames_replicate (n : Nat) :
    publishedFrames (replicate n publishBlank) createdMapping 0 = replicate n blankFrame := by
  have hframe : SdkCall.frameFor 0 publishBlank = some blankFrame := rfl
  rw [publishedFrames, acceptedCalls_replicate createdMapping_fresh publishBlank_accepted,
    filterMap_replicate_of_some hframe]

/-- A ring after `2^32` records, and a slot after `2^31` frames: the reader
returns nothing of either. -/
theorem wrapped_counters_hide : (∃ snapshot, (heldMapping (runCalls (replicate (2 ^ 32)
        (.addBreadcrumb (plainRecord 0 5 1)))
        createdMapping).2).snapshotOwnedUntilWithPolicy none .all =
          .ok snapshot ∧ ¬ YieldsNewest snapshot (addedCrumbs (replicate (2 ^ 32)
        (.addBreadcrumb (plainRecord 0 5 1))) createdMapping)) ∧
    ∃ snapshot, (heldMapping (runCalls (replicate (2 ^ 31) publishBlank)
        createdMapping).2).snapshotOwnedUntilWithPolicy none .all =
          .ok snapshot ∧ ¬ FindsPublished snapshot
        (publishedFrames (replicate (2 ^ 31) publishBlank) createdMapping) := by
  constructor
  · obtain ⟨j, hrep, hcrumbs, -⟩ := runCalls_added createdMapping_fresh
      (replicate (2 ^ 32) (.addBreadcrumb (plainRecord 0 5 1)))
    obtain ⟨snapshot, hok⟩ := (hrep.snapshots (heldMapping_suspended _) .all).1
    have hmirrors := (hrep.shows (heldMapping_suspended _) hok).mirrors hrep.idle
    refine ⟨snapshot, hok, ?_⟩
    rw [← hcrumbs, yieldsNewest_iff hmirrors rfl hrep, hcrumbs]
    intro h
    have hring := (h 0).1
    rw [addedCrumbs_replicate, length_replicate, Nat.mod_self] at hring
    simp only [crumbRingCapacity] at hring
    omega
  · obtain ⟨j, hrep, -, hframes⟩ := runCalls_added createdMapping_fresh
      (replicate (2 ^ 31) publishBlank)
    obtain ⟨snapshot, hok⟩ := (hrep.snapshots (heldMapping_suspended _) .all).1
    have hshows := hrep.shows (heldMapping_suspended _) hok
    refine ⟨snapshot, hok, ?_⟩
    rw [← hframes, findsPublished_iff (hshows.mirrors hrep.idle) hshows rfl hrep, hframes]
    intro h
    refine h 0 ?_ ?_
    · rw [publishedFrames_replicate]
      exact ne_nil_of_length_pos (by rw [length_replicate]; decide)
    · rw [publishedFrames_replicate, length_replicate, Nat.mod_self]

end CrashMonitor.Shm
