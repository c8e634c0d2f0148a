import CrashMonitor.Shm.Reader
import Mathlib.Algebra.GroupWithZero.Nat

/-!
# Shared memory — which screenshots are taken

`read_screenshots_bounded` scans the published slots, orders them by tier,
age and slot, and copies pixels until a budget runs out. The order is the
one of the scanned slots whose timestamp and tier can be read; the copy loop
cuts it in two, what it examined and what it left, and every published slot
is accounted for once.
-/

namespace CrashMonitor.Shm

open Bytes MachineInt List

/-! ## The published slots -/

namespace OwnedShmSnapshot

variable {candidate : Candidate} {taken asked : Nat}

/-- Before in capture priority: lower tier, then newer, then lower slot. -/
def Candidate.Precedes (left right : Candidate) : Prop :=
  left.tier < right.tier ∨ (left.tier = right.tier ∧
    (right.timestampNs < left.timestampNs ∨
      (left.timestampNs = right.timestampNs ∧ left.index < right.index)))

section

variable (snapshot : OwnedShmSnapshot)

/-- A slot with a readable generation that is neither zero nor odd. -/
def published (index : Nat) : Bool :=
  match snapshot.readU32 (screenshotGenerationsOffset + index * 4) with
  | none => false
  | some valid => valid ≠ 0 && valid % 2 = 0

/-- The published slots, in slot order. -/
def publishedSlots : List Nat := (List.range screenshotSlots).filter snapshot.published

/-- The keys a slot is ordered by, where both can be read. -/
def keysOf (index : Nat) : Option Candidate :=
  match snapshot.readU64 (screenshotTimestampsOffset + index * 8),
    snapshot.readU32 (screenshotTiersOffset + index * 4) with
  | some timestampNs, some tier => some ⟨index, timestampNs, tier⟩
  | _, _ => none

/-- The frame of a slot, where its pixels can be read. -/
def frameOf (candidate : Candidate) : Option RawScreenshot :=
  (snapshot.range (screenshotDataOffset +
    candidate.index * screenshotBytesPerSlot) screenshotBytesPerSlot).map
      fun rgba => ⟨candidate.timestampNs, candidate.tier, 480, 270, rgba⟩

end

variable {snapshot : OwnedShmSnapshot}

theorem index_of_keysOf {index} (h : snapshot.keysOf index = some candidate) :
    candidate.index = index := by
  unfold keysOf at h
  split at h
  · cases h
    rfl
  · cases h

theorem length_of_range {offset len bytes}
    (h : snapshot.range offset len = some bytes) : bytes.length = len := by
  unfold range at h
  split at h
  · cases h
  · cases h
    exact Mem.read_length _ _ _

theorem length_of_frameOf {frame} (h : snapshot.frameOf candidate = some frame) :
    frame.rgba.length = screenshotBytesPerSlot := by
  obtain ⟨rgba, hrange, rfl⟩ := Option.map_eq_some_iff.mp h
  exact length_of_range hrange

/-- A generation word that does not fit ends the scan, and no later one
fits. -/
theorem not_published_after {index later} (h : index ≤ later)
    (hnone : snapshot.readU32 (screenshotGenerationsOffset + index * 4) = none) :
    snapshot.published later = false := by
  have hlater : snapshot.readU32 (screenshotGenerationsOffset + later * 4) = none := by
    simp only [readU32, readUnsigned, range, Option.map_eq_none_iff,
      ite_eq_left_iff, reduceCtorEq, imp_false, not_not] at hnone ⊢
    omega
  unfold published
  rw [hlater]

/-- The scan of slots in increasing order. -/
theorem scanSlots_eq {slots} (h : slots.Pairwise (· ≤ ·)) :
    snapshot.scanSlots slots = ((slots.filter snapshot.published).filterMap snapshot.keysOf,
        (slots.filter snapshot.published).filter fun index => (snapshot.keysOf index).isNone) := by
  induction slots with
  | nil => rfl
  | cons index rest ih =>
    obtain ⟨hle, hrest⟩ := pairwise_cons.mp h
    unfold scanSlots
    cases hvalid : snapshot.readU32 (screenshotGenerationsOffset + index * 4) with
    | none =>
      have hout : (index :: rest).filter snapshot.published = [] := by
        rw [filter_eq_nil_iff]
        intro later hmem
        have hge : index ≤ later := forall_mem_cons.mpr ⟨Nat.le_refl index, hle⟩ later hmem
        simp [not_published_after hge hvalid]
      simp [hout]
    | some valid =>
      simp only [ih hrest]
      have hpublished : snapshot.published index =
          (decide (valid ≠ 0) && decide (valid % 2 = 0)) := by
        unfold published
        rw [hvalid]
      by_cases hskip : valid = 0 ∨ valid % 2 ≠ 0
      · have hnot : snapshot.published index = false := by
          rw [hpublished]
          rcases hskip with h0 | hodd
          · simp [h0]
          · simp [hodd]
        rw [if_pos hskip, filter_cons_of_neg (by simp [hnot])]
      · have hpub : snapshot.published index = true := by
          rw [hpublished]
          simpa using hskip
        rw [if_neg hskip, filter_cons_of_pos hpub]
        cases htime : snapshot.readU64 (screenshotTimestampsOffset + index * 8) with
        | none =>
          have hkeys : snapshot.keysOf index = none := by simp only [keysOf, htime]
          rw [filterMap_cons_none hkeys, filter_cons_of_pos (by simp [hkeys])]
        | some timestampNs =>
          cases htier : snapshot.readU32 (screenshotTiersOffset + index * 4) with
          | none =>
            have hkeys : snapshot.keysOf index = none := by simp only [keysOf, htime, htier]
            rw [filterMap_cons_none hkeys, filter_cons_of_pos (by simp [hkeys])]
          | some tier =>
            have hkeys : snapshot.keysOf index = some ⟨index, timestampNs, tier⟩ := by
              simp only [keysOf, htime, htier]
            rw [filterMap_cons_some hkeys, filter_cons_of_neg (by simp [hkeys])]

/-! ## The order -/

open Candidate

theorem before_trans (a b c : Candidate) (hab : a.before b = true)
    (hbc : b.before c = true) : a.before c = true := by
  simp only [before, Bool.or_eq_true, Bool.and_eq_true, decide_eq_true_eq, beq_iff_eq] at hab hbc ⊢
  omega

theorem before_total (a b : Candidate) : (a.before b || b.before a) = true := by
  simp only [before, Bool.or_eq_true, Bool.and_eq_true, decide_eq_true_eq, beq_iff_eq]
  omega

theorem precedes_of_before {a b : Candidate} (h : a.before b = true)
    (hne : a.index ≠ b.index) : a.Precedes b := by
  simp only [before, Precedes, Bool.or_eq_true,
    Bool.and_eq_true, decide_eq_true_eq, beq_iff_eq] at h ⊢
  omega

section

variable (snapshot : OwnedShmSnapshot)

/-- The published slots with readable keys, in capture priority. -/
def rankedSlots : List Candidate :=
  (snapshot.publishedSlots.filterMap snapshot.keysOf).mergeSort before

/-- The published slots without. -/
def unkeyedSlots : List Nat :=
  snapshot.publishedSlots.filter fun index => (snapshot.keysOf index).isNone

end

theorem mem_rankedSlots :
    candidate ∈ snapshot.rankedSlots ↔
      candidate.index ∈ snapshot.publishedSlots ∧
        snapshot.keysOf candidate.index = some candidate := by
  unfold rankedSlots
  rw [mem_mergeSort, mem_filterMap]
  constructor
  · rintro ⟨index, hmem, hkeys⟩
    rw [index_of_keysOf hkeys]
    exact ⟨hmem, hkeys⟩
  · rintro ⟨hmem, hkeys⟩
    exact ⟨candidate.index, hmem, hkeys⟩

theorem index_filterMap_keysOf (slots : List Nat) :
    (slots.filterMap snapshot.keysOf).map index =
      slots.filter fun index => (snapshot.keysOf index).isSome := by
  induction slots with
  | nil => rfl
  | cons index rest ih =>
    cases hkeys : snapshot.keysOf index with
    | none => simp [hkeys, ih]
    | some candidate => simp [hkeys, ih, index_of_keysOf hkeys]

/-- The slots of the order, each once. -/
theorem index_rankedSlots_perm : (snapshot.rankedSlots.map index).Perm
      (snapshot.publishedSlots.filter fun index => (snapshot.keysOf index).isSome) := by
  rw [← index_filterMap_keysOf]
  exact (mergeSort_perm _ _).map _

theorem publishedSlots_nodup : snapshot.publishedSlots.Nodup := nodup_range.filter _

theorem rankedSlots_pairwise : snapshot.rankedSlots.Pairwise Precedes := by
  have hbefore : snapshot.rankedSlots.Pairwise fun a b => a.before b = true :=
    pairwise_mergeSort before_trans before_total _
  have hne : snapshot.rankedSlots.Pairwise fun a b => a.index ≠ b.index := by
    rw [← pairwise_map]
    exact index_rankedSlots_perm.nodup_iff.mpr (publishedSlots_nodup.filter _)
  exact hbefore.imp₂ (fun _ _ => precedes_of_before) hne

theorem length_rankedSlots_le : snapshot.rankedSlots.length ≤ screenshotSlots := by
  calc snapshot.rankedSlots.length = (snapshot.rankedSlots.map index).length := by simp
    _ = _ := index_rankedSlots_perm.length_eq
    _ ≤ snapshot.publishedSlots.length := length_filter_le _ _
    _ ≤ (List.range screenshotSlots).length := length_filter_le _ _
    _ = screenshotSlots := length_range

theorem readScreenshotsBounded_eq (maxFrames maxBytes : Nat) (shouldContinue : Nat → Bool) :
    snapshot.readScreenshotsBounded maxFrames maxBytes shouldContinue =
      snapshot.copyScreenshots screenshotBytesPerSlot maxFrames maxBytes shouldContinue
        snapshot.rankedSlots [] 0 0 snapshot.unkeyedSlots := by
  have hsorted : (List.range screenshotSlots).Pairwise (· ≤ ·) := pairwise_lt_range.imp Nat.le_of_lt
  unfold readScreenshotsBounded
  simp only [scanSlots_eq hsorted]
  rfl

/-! ## The copy loop -/

/-- The first limit, in the order of the source, that keeps the next slot from
being examined after `taken` frames and `asked` answers. -/
def firstLimit (maxFrames maxBytes : Nat) (shouldContinue : Nat → Bool)
    (taken asked : Nat) : Option ScreenshotBudgetExhaustion :=
  if maxFrames ≤ taken then some .frameLimit
  else if (taken + 1) * screenshotBytesPerSlot > maxBytes then some .byteLimit
  else if shouldContinue asked = false then some .deadline
  else none

theorem bounds_of_firstLimit {maxFrames maxBytes shouldContinue}
    (h : firstLimit maxFrames maxBytes shouldContinue taken asked = none) :
    taken + 1 ≤ maxFrames ∧ (taken + 1) * screenshotBytesPerSlot ≤ maxBytes := by
  unfold firstLimit at h
  split at h
  · cases h
  split at h
  · cases h
  omega

section

variable (snapshot : OwnedShmSnapshot) (maxFrames maxBytes : Nat) (shouldContinue : Nat → Bool)

/-- The loop went through `examined` and stopped in front of `later`, having
started with `taken` frames and `asked` answers. -/
structure StopsAt (taken asked : Nat) (examined later : List Candidate)
    (reason : Option ScreenshotBudgetExhaustion) : Prop where
  unstopped : ∀ n < examined.length, firstLimit maxFrames maxBytes shouldContinue
      (taken + ((examined.take n).filterMap snapshot.frameOf).length) (asked + n) = none
  finished : later = [] → reason = none
  stopped : later ≠ [] → reason ≠ none ∧ reason = firstLimit maxFrames maxBytes shouldContinue
      (taken + (examined.filterMap snapshot.frameOf).length) (asked + examined.length)

end

variable {maxFrames maxBytes : Nat} {shouldContinue : Nat → Bool}

theorem StopsAt.cons {examined later reason}
    (hnone : firstLimit maxFrames maxBytes shouldContinue taken asked = none)
    (h : snapshot.StopsAt maxFrames maxBytes shouldContinue
      (taken + ([candidate].filterMap snapshot.frameOf).length) (asked + 1) examined later reason) :
    snapshot.StopsAt maxFrames maxBytes shouldContinue taken asked
      (candidate :: examined) later reason := by
  have hsplit : ∀ l,
      ((candidate :: l).filterMap snapshot.frameOf).length =
        ([candidate].filterMap snapshot.frameOf).length +
          (l.filterMap snapshot.frameOf).length := by
    intro l
    rw [← length_append, ← filterMap_append]
    rfl
  refine ⟨?_, h.finished, ?_⟩
  · intro n hn
    cases n with
    | zero => simpa using hnone
    | succ n =>
      have hlater := h.unstopped n (by simpa using hn)
      rw [take_succ_cons, hsplit, ← Nat.add_assoc, Nat.add_comm n 1, ← Nat.add_assoc]
      exact hlater
  · intro hne
    obtain ⟨hsome, hlimit⟩ := h.stopped hne
    refine ⟨hsome, ?_⟩
    rw [hsplit, ← Nat.add_assoc, length_cons, Nat.add_comm _ 1, ← Nat.add_assoc]
    exact hlimit

section

variable {candidate : Candidate} {rest : List Candidate}
  {screenshots : List RawScreenshot} {calls : Nat} {unreadable : List Nat}

/-- There are too few slots for the size to overflow. -/
theorem size_le_u64Max (hfit : screenshots.length + (candidate :: rest).length ≤ screenshotSlots) :
    ¬ (screenshots.length + 1) * screenshotBytesPerSlot > u64Max := by
  simp only [length_cons, screenshotSlots] at hfit
  simp only [screenshotBytesPerSlot, u64Max]
  omega

/-- One round of the loop, by the first limit. -/
theorem copyScreenshots_cons
    (hfit : screenshots.length + (candidate :: rest).length ≤ screenshotSlots) :
    snapshot.copyScreenshots screenshotBytesPerSlot maxFrames maxBytes shouldContinue
        (candidate :: rest) screenshots (screenshots.length * screenshotBytesPerSlot) calls
        unreadable =
      match firstLimit maxFrames maxBytes shouldContinue screenshots.length calls,
        snapshot.frameOf candidate with
      | some reason, _ => ⟨screenshots, some reason, unreadable⟩
      | none, none =>
        snapshot.copyScreenshots screenshotBytesPerSlot maxFrames maxBytes shouldContinue rest
          screenshots (screenshots.length * screenshotBytesPerSlot) (calls + 1)
          (unreadable ++ [candidate.index])
      | none, some frame =>
        snapshot.copyScreenshots screenshotBytesPerSlot maxFrames maxBytes shouldContinue rest
          (screenshots ++ [frame]) ((screenshots.length + 1) * screenshotBytesPerSlot) (calls + 1)
          unreadable := by
  have hnext : screenshots.length * screenshotBytesPerSlot +
      screenshotBytesPerSlot = (screenshots.length + 1) * screenshotBytesPerSlot := by
    rw [Nat.add_mul, Nat.one_mul]
  rw [copyScreenshots]
  simp only [hnext, ge_iff_le, size_le_u64Max hfit, false_or]
  rw [firstLimit]
  by_cases hframes : maxFrames ≤ screenshots.length
  · rw [if_pos hframes, if_pos hframes]
  rw [if_neg hframes, if_neg hframes]
  by_cases hbytes : (screenshots.length + 1) * screenshotBytesPerSlot > maxBytes
  · rw [if_pos hbytes, if_pos hbytes]
  rw [if_neg hbytes, if_neg hbytes]
  by_cases hdeadline : shouldContinue calls = false
  · rw [if_pos hdeadline, if_pos hdeadline]
  rw [if_neg hdeadline, if_neg hdeadline, frameOf]
  cases snapshot.range (screenshotDataOffset +
      candidate.index * screenshotBytesPerSlot) screenshotBytesPerSlot with
  | none => rfl
  | some rgba => rfl

end

/-- What the loop does with the rest of the order. -/
theorem copyScreenshots_spec (snapshot : OwnedShmSnapshot) (maxFrames maxBytes : Nat)
    (shouldContinue : Nat → Bool) (rest : List Candidate)
    (screenshots : List RawScreenshot) (calls : Nat) (unreadable : List Nat)
    (hfit : screenshots.length + rest.length ≤ screenshotSlots) :
    let outcome := snapshot.copyScreenshots screenshotBytesPerSlot maxFrames maxBytes shouldContinue
      rest screenshots (screenshots.length * screenshotBytesPerSlot) calls unreadable
    ∃ examined later, rest = examined ++ later ∧
      outcome.screenshots = screenshots ++ examined.filterMap snapshot.frameOf ∧
      outcome.unreadableSlots = unreadable ++
        (examined.filter fun c => (snapshot.frameOf c).isNone).map index ∧
      snapshot.StopsAt maxFrames maxBytes shouldContinue screenshots.length calls
        examined later outcome.budgetExhaustion := by
  induction rest generalizing screenshots calls unreadable with
  | nil =>
    refine ⟨[], [], rfl, ?_, ?_, ?_⟩
    · simp [copyScreenshots]
    · simp [copyScreenshots]
    · exact ⟨by simp, fun _ => rfl, fun h => absurd rfl h⟩
  | cons candidate rest ih =>
    rw [copyScreenshots_cons hfit]
    have hfit' : screenshots.length + 1 + rest.length ≤ screenshotSlots := by
      simp only [length_cons] at hfit
      omega
    cases hlimit : firstLimit maxFrames maxBytes shouldContinue screenshots.length calls with
    | some reason =>
      -- the loop ends in front of this slot
      refine ⟨[], candidate :: rest, rfl, by simp, by simp, by simp, by simp, ?_⟩
      intro _
      exact ⟨by simp, by simpa using hlimit.symm⟩
    | none =>
      cases hframe : snapshot.frameOf candidate with
      | none =>
        obtain ⟨examined, later, hrest, hshots, hunread, hstops⟩ :=
          ih screenshots (calls + 1) (unreadable ++ [candidate.index]) (by omega)
        refine ⟨candidate :: examined, later, by rw [hrest]; rfl, ?_, ?_, ?_⟩
        · rw [hshots, filterMap_cons_none hframe]
        · rw [hunread, filter_cons_of_pos (by simp [hframe]),
            map_cons, append_assoc, singleton_append]
        · apply StopsAt.cons hlimit
          rw [filterMap_cons_none hframe]
          exact hstops
      | some frame =>
        have hlength : (screenshots ++ [frame]).length = screenshots.length + 1 := by simp
        obtain ⟨examined, later, hrest, hshots, hunread, hstops⟩ :=
          ih (screenshots ++ [frame]) (calls + 1) unreadable (by rw [hlength]; exact hfit')
        rw [hlength] at hshots hunread hstops
        refine ⟨candidate :: examined, later, by rw [hrest]; rfl, ?_, ?_, ?_⟩
        · rw [hshots, filterMap_cons_some hframe, append_assoc, singleton_append]
        · rw [hunread, filter_cons_of_neg (by simp [hframe])]
        · apply StopsAt.cons hlimit
          rw [filterMap_cons_some hframe]
          exact hstops

/-- Each frame was taken below both limits. -/
theorem StopsAt.bounds {examined later reason}
    (h : snapshot.StopsAt maxFrames maxBytes shouldContinue taken asked examined later reason)
    (hframes : taken ≤ maxFrames) (hbytes : taken * screenshotBytesPerSlot ≤ maxBytes) :
    taken + (examined.filterMap snapshot.frameOf).length ≤ maxFrames ∧
      (taken + (examined.filterMap snapshot.frameOf).length) *
        screenshotBytesPerSlot ≤ maxBytes := by
  -- at the last slot at most one frame was added, and no limit was reached
  rcases eq_nil_or_concat examined with rfl | ⟨front, last, rfl⟩
  · simpa using ⟨hframes, hbytes⟩
  have hnone := h.unstopped front.length (by simp)
  rw [concat_eq_append, take_left] at hnone
  have hlimits := bounds_of_firstLimit hnone
  have hlast : ([last].filterMap snapshot.frameOf).length ≤ 1 := length_filterMap_le _ _
  rw [concat_eq_append, filterMap_append, length_append]
  simp only [screenshotBytesPerSlot] at hlimits ⊢
  omega

/-! ## The selection -/

theorem sum_rgba_length (examined : List Candidate) :
    ((examined.filterMap snapshot.frameOf).map (·.rgba.length)).sum =
      (examined.filterMap snapshot.frameOf).length * screenshotBytesPerSlot := by
  have hall : ∀ frame ∈ examined.filterMap snapshot.frameOf,
      frame.rgba.length = screenshotBytesPerSlot := by
    intro frame hmem
    obtain ⟨candidate, -, hframe⟩ := mem_filterMap.mp hmem
    exact length_of_frameOf hframe
  rw [map_congr_left hall, map_const', sum_replicate_nat]

/-- What a bounded read of the screenshots amounts to, where `examined` is the
part of the order it went through and `later` the part after the stop. -/
structure Selects (snapshot : OwnedShmSnapshot) (maxFrames maxBytes : Nat)
    (shouldContinue : Nat → Bool) (outcome : ScreenshotReadOutcome)
    (examined later : List Candidate) : Prop where
  ordered : (examined ++ later).Pairwise Precedes
  ranked : ∀ candidate, candidate ∈ examined ++ later ↔
    candidate.index ∈ snapshot.publishedSlots ∧ snapshot.keysOf candidate.index = some candidate
  returned : outcome.screenshots = examined.filterMap snapshot.frameOf
  initial : outcome.screenshots <+: (examined ++ later).filterMap snapshot.frameOf
  frames : outcome.screenshots.length ≤ maxFrames
  bytes : (outcome.screenshots.map (·.rgba.length)).sum ≤ maxBytes
  exhaustion : outcome.budgetExhaustion = none ↔ later = []
  reason : later ≠ [] → outcome.budgetExhaustion =
    firstLimit maxFrames maxBytes shouldContinue outcome.screenshots.length examined.length
  unstopped : ∀ n < examined.length, firstLimit maxFrames maxBytes shouldContinue
      ((examined.take n).filterMap snapshot.frameOf).length n = none
  accounted : ((examined.filter fun c => (snapshot.frameOf c).isSome).map
      index ++ outcome.unreadableSlots ++ later.map index).Perm snapshot.publishedSlots

/-- A list falls into the part with a value and the part without. -/
theorem filter_isSome_append_isNone_perm {α β : Type} (f : α → Option β) (l : List α) :
    (l.filter (fun a => (f a).isSome) ++ l.filter fun a => (f a).isNone).Perm l := by
  have h := filter_append_perm (fun a => (f a).isSome) l
  have hnot : (fun a => !(f a).isSome) = fun a => (f a).isNone := by
    funext a
    simp
  rwa [hnot] at h

theorem ranked_append_unkeyed_perm : (snapshot.rankedSlots.map index ++ snapshot.unkeyedSlots).Perm
      snapshot.publishedSlots := (index_rankedSlots_perm.append_right _).trans
    (filter_isSome_append_isNone_perm ..)

theorem readScreenshotsBounded_selects (snapshot : OwnedShmSnapshot)
    (maxFrames maxBytes : Nat) (shouldContinue : Nat → Bool) :
    ∃ examined later, snapshot.Selects maxFrames maxBytes shouldContinue
      (snapshot.readScreenshotsBounded maxFrames maxBytes shouldContinue) examined later := by
  rw [readScreenshotsBounded_eq]
  obtain ⟨examined, later, hsplit, hshots, hunread, hstops⟩ :=
    snapshot.copyScreenshots_spec maxFrames maxBytes shouldContinue
      snapshot.rankedSlots [] 0 snapshot.unkeyedSlots (by simpa using length_rankedSlots_le)
  simp only [length_nil, Nat.zero_mul, nil_append] at hshots hunread hstops
  have hbounds := hstops.bounds (Nat.zero_le _) (by simp)
  simp only [Nat.zero_add] at hbounds
  refine ⟨examined, later, ?_, ?_, hshots, ?_, ?_, ?_, ?_, ?_, ?_, ?_⟩
  · rw [← hsplit]
    exact rankedSlots_pairwise
  · intro candidate
    rw [← hsplit]
    exact mem_rankedSlots
  · rw [hshots, filterMap_append]
    exact prefix_append _ _
  · rw [hshots]
    exact hbounds.1
  · rw [hshots, sum_rgba_length]
    exact hbounds.2
  · constructor
    · intro hnone
      by_contra hne
      exact (hstops.stopped hne).1 hnone
    · exact hstops.finished
  · intro hne
    rw [hshots]
    simpa using (hstops.stopped hne).2
  · intro n hn
    simpa using hstops.unstopped n hn
  · -- the examined slots split by their pixels, the published ones by their keys
    rw [hunread]
    have hexamined := (filter_isSome_append_isNone_perm snapshot.frameOf examined).map index
    rw [map_append] at hexamined
    refine List.Perm.trans ?_ ranked_append_unkeyed_perm
    rw [hsplit, map_append]
    apply perm_iff_count.mpr
    intro index
    have hcount := hexamined.count_eq index
    simp only [count_append] at hcount ⊢
    omega

end OwnedShmSnapshot

end CrashMonitor.Shm
