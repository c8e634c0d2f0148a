import CrashMonitor.Filters.RateLimiter

/-!
# What the rate limiter admits

Both limiters implement the sliding-window policy as long as their clock does
not go back. The state file counts whole milliseconds, so the times and the
window of the persistent limiter are rounded down first. When the wall clock
does go back, timestamps from the future stay in the queue and are counted.
-/

namespace CrashMonitor.Filters

open Lib CompactText SlidingWindow EventLoop MachineInt Fallible List RateLimiter Nat
variable {now : UInt64} {limiter : RateLimiter} {recent : Recent}

/-- A limiter that follows the policy, with what that means for every window
and for the types among each other. -/
structure RateLimited (step : Monitors → Arrival → Bool × Monitors) (time : Arrival → Nat)
    (span limit : Nat) (valid : Arrival → Prop) : Prop where
  admits_iff : Policy step .fresh Arrival.reportType time span limit valid
  window_bound : ∀ events, InOrder time events → (∀ a ∈ events, valid a) →
    ∀ reportType now, load Arrival.reportType time span reportType now
      (admittedBy step .fresh events) ≤ limit
  other_types : ∀ events, InOrder time events → (∀ a ∈ events, valid a) →
    ∀ reportType, admittedBy step .fresh (events.filter (·.reportType = reportType)) =
      (admittedBy step .fresh events).filter (·.reportType = reportType)

theorem RateLimited.of_policy {step time span limit valid}
    (h : Policy step .fresh Arrival.reportType time span limit valid) :
    RateLimited step time span limit valid := ⟨h, fun _ horder hvalid => h.load_le horder hvalid,
    fun _ horder hvalid => h.admittedBy_filter horder hvalid⟩

/-! ## The limiter in memory -/

/-- An event at monitor `p`, which runs on since the last one. -/
def InProcess (p : Nat) (a : Arrival) : Prop := a.faults = quiet ∧ a.proc = p ∧ p ∉ a.restarted

theorem keptInstants_eq {window now queue} (h : ∀ t ∈ queue, t ≤ now) :
    keptInstants window now queue = queue.dropWhile (expired window now) := by
  unfold keptInstants
  induction queue with
  | nil => rfl
  | cons t rest ih =>
    have ht := h t mem_cons_self
    have hiff : decide (window ≤ now - t) = expired window now t := by
      rw [expired, decide_eq_decide]
      omega
    rw [dropWhile_cons, dropWhile_cons, hiff, ih fun u hu => h u (mem_cons_of_mem t hu)]

section InMemory

variable {serde : RateSerde} {maxEvents window p : Nat}

theorem arrivalStep_inProcess {monitors a} (h : InProcess p a) {kept}
    (hkept : kept = keptInstants window a.clock.instant (monitors.recent p a.reportType)) :
    arrivalStep serde (.new maxEvents window) monitors a =
      if maxEvents ≤ kept.length then
        (false, monitors.after a ((monitors.memoryFor a).setRecent a.reportType kept))
      else (true, monitors.after a (((monitors.memoryFor a).setRecent a.reportType kept).setRecent
        a.reportType (kept ++ [a.clock.instant]))) := by
  obtain ⟨hquiet, hproc, halive⟩ := h
  have hmemory : (monitors.memoryFor a).recent = monitors.recent p := by
    rw [Monitors.memoryFor, hproc, if_neg halive]
  have hcheck : checkArrival serde (.new maxEvents window) monitors a =
      checkAndRecord (.new maxEvents window) quiet a.reportType a.clock.instant
        (monitors.memoryFor a) := by
    rw [checkArrival, hquiet]
    rfl
  have hlimit : (new maxEvents window).maxEvents = maxEvents := rfl
  rw [checkAndRecord_quiet _ _ _ _ (hmemory ▸ hkept), hlimit] at hcheck
  by_cases hfull : maxEvents ≤ kept.length
  · rw [if_pos hfull] at hcheck ⊢
    exact arrivalStep_of_ok hcheck
  · rw [if_neg hfull] at hcheck ⊢
    exact arrivalStep_of_ok hcheck

theorem after_recent {monitors : Monitors} {a} (h : InProcess p a)
    (memory : RateMemory) : (monitors.after a memory).recent p = memory.recent := by
  simp [Monitors.after, h.2.1]

/-- The queues of monitor `p` implement the policy. -/
theorem inMemory_implements :
    Implements (arrivalStep serde (.new maxEvents window)) Arrival.reportType
      (fun a => a.clock.instant) window maxEvents (InProcess p) (fun _ => True)
      (fun monitors => monitors.recent p) where
  decides := by
    intro monitors a _ ha hle
    rw [arrivalStep_inProcess ha rfl, keptInstants_eq hle]
    by_cases hfull : maxEvents ≤
        ((monitors.recent p a.reportType).dropWhile (expired window a.clock.instant)).length
    · rw [if_pos hfull, decide_eq_false (not_lt.mpr hfull)]
    · rw [if_neg hfull, decide_eq_true (not_le.mp hfull)]
  admitted := by
    intro monitors a _ ha hle hyes
    rw [arrivalStep_inProcess ha rfl, keptInstants_eq hle] at hyes ⊢
    split at hyes
    · cases hyes
    · next hroom => rw [if_neg hroom, after_recent ha, RateMemory.setRecent_self]
  refused := by
    intro monitors a _ ha hle hno
    left
    rw [arrivalStep_inProcess ha rfl, keptInstants_eq hle] at hno ⊢
    split at hno
    · next hfull => rw [if_pos hfull, after_recent ha, RateMemory.setRecent_self]
    · cases hno
  others := by
    intro monitors a other _ ha hne
    have hmemory : (monitors.memoryFor a).recent = monitors.recent p := by
      rw [Monitors.memoryFor, ha.2.1, if_neg ha.2.2]
    rw [arrivalStep_inProcess ha rfl]
    split
    · rw [after_recent ha, RateMemory.setRecent_of_ne _ hne, hmemory]
    · rw [after_recent ha, RateMemory.setRecent_of_ne _ hne, RateMemory.setRecent_of_ne _ hne,
        hmemory]
  keeps := fun _ _ _ _ => trivial

end InMemory

/-! ## The limiter with a state file -/

/-- The timestamps the file holds for a type. -/
def fileQueue (serde : RateSerde) (monitors : Monitors) (reportType : ReportType) : List Nat :=
  match loadState serde quiet monitors.file with
  | .ok recent => (recent.of reportType).map UInt64.toNat
  | .error _ => []

/-- The file is the limiter's own. -/
def OwnFile (limiter : RateLimiter) (monitors : Monitors) : Prop :=
  ∃ recent, FileHolds recent monitors.file ∧ recent.Bounded limiter.maxEvents

/-- Nothing fails, and the wall clock is at least a window after the epoch. -/
def AfterWindow (window : Nat) (a : Arrival) : Prop :=
  a.faults = quiet ∧ ∃ ns, a.clock.sinceEpoch = some ns ∧ window ≤ ns

theorem Clock.nowMs_toNat (clock : Clock) :
    clock.nowMs.toNat = tryFromOrMax (clock.sinceEpoch.getD 0 / 1000000) := by
  have hle : tryFromOrMax (clock.sinceEpoch.getD 0 / 1000000) ≤ u64Max := min_le_right _ _
  apply UInt64.toNat_ofNat_of_lt'
  have hsize : u64Max < UInt64.size := by decide
  omega

theorem windowMs_le_nowMs {a} (h : AfterWindow limiter.window a) :
    limiter.windowMs ≤ a.clock.nowMs.toNat := by
  obtain ⟨-, ns, hns, hle⟩ := h
  rw [Clock.nowMs_toNat, hns, Option.getD_some, windowMs]
  unfold tryFromOrMax
  omega

theorem keptOf_toNat {reportType} (h : limiter.windowMs ≤ now.toNat) :
    (keptOf limiter recent reportType now).map UInt64.toNat =
      ((recent.of reportType).map UInt64.toNat).dropWhile (expired limiter.windowMs now.toNat) := by
  rw [keptOf, keptTimestamps, dropWhile_map]
  congr 2
  funext t
  rw [Function.comp_apply, expired, decide_eq_decide]
  omega

section Persistent

variable {serde : RateSerde} {limiter : RateLimiter} {monitors : Monitors} {recent : Recent}
  {a : Arrival}

theorem fileQueue_of_holds (hfile : FileHolds recent monitors.file)
    (hbounded : recent.Bounded maxPersistedEventsPerType) {reportType} :
    fileQueue serde monitors reportType = (recent.of reportType).map UInt64.toNat := by
  rw [fileQueue, loadState_of_holds hfile hbounded rfl rfl rfl]

theorem ownFile_fresh : OwnFile limiter .fresh :=
  ⟨fun _ => none, .absent fun _ => rfl, fun _ => zero_le _⟩

variable (hmax : limiter.maxEvents ≤ maxPersistedEventsPerType)
  (hpath : limiter.statePath.isNone = false)
include hmax hpath

section

variable (hfile : FileHolds recent monitors.file) (hbounded : recent.Bounded limiter.maxEvents)

include hfile hbounded

/-- A check of any kind leaves the file as it was or with the event recorded. -/
theorem checkArrival_outcome {a} :
    PersistentOutcome limiter recent a.reportType a.clock.nowMs (monitors.memoryFor a)
      (checkArrival serde limiter monitors a) := by
  have hsome : limiter.statePath.isSome = true := by rwa [Option.isNone_eq_false_iff] at hpath
  rw [checkArrival, shouldProcess, if_pos hsome]
  cases hclock : a.clock.sinceEpoch with
  | none => exact .failed _
  | some ns => exact checkAndRecordPersistent_outcome hmax hbounded hpath hfile _ _ _

/-- Without failures the answer is whether the queue is full. -/
theorem checkArrival_afterWindow (ha : AfterWindow limiter.window a) :
    checkArrival serde limiter monitors a =
      if limiter.maxEvents ≤ (keptOf limiter recent a.reportType a.clock.nowMs).length then
        .ok false (monitors.memoryFor a)
      else .ok true ((monitors.memoryFor a).setFile
        (some (stateText (recordIn limiter recent a.reportType a.clock.nowMs)))) := by
  obtain ⟨hquiet, ns, hns, -⟩ := ha
  have hsome : limiter.statePath.isSome = true := by rwa [Option.isNone_eq_false_iff] at hpath
  rw [checkArrival, shouldProcess, if_pos hsome, hns, hquiet]
  exact checkAndRecordPersistent_quiet hmax hbounded hpath hfile _ _

theorem arrivalStep_afterWindow (ha : AfterWindow limiter.window a) :
    arrivalStep serde limiter monitors a =
      if limiter.maxEvents ≤ (keptOf limiter recent a.reportType a.clock.nowMs).length then
        (false, monitors.after a (monitors.memoryFor a))
      else (true, monitors.after a ((monitors.memoryFor a).setFile
        (some (stateText (recordIn limiter recent a.reportType a.clock.nowMs))))) := by
  have hcheck : checkArrival serde limiter monitors a = _ :=
    checkArrival_afterWindow hmax hpath hfile hbounded ha
  by_cases hfull : limiter.maxEvents ≤ (keptOf limiter recent a.reportType a.clock.nowMs).length
  · rw [if_pos hfull] at hcheck ⊢
    exact arrivalStep_of_ok hcheck
  · rw [if_neg hfull] at hcheck ⊢
    exact arrivalStep_of_ok hcheck

/-- Whatever a check does, the file holds the queues as they were or with the
event recorded. -/
theorem holds_after_check {a} : ∃ recent',
    FileHolds recent' (arrivalStep serde limiter monitors a).2.file ∧
    recent'.Bounded limiter.maxEvents ∧
    (recent' = recent ∨ recent' = recordIn limiter recent a.reportType a.clock.nowMs) := by
  generalize hresult : checkArrival serde limiter monitors a = result
  have hout : PersistentOutcome limiter recent a.reportType a.clock.nowMs
      (monitors.memoryFor a) result := hresult ▸ checkArrival_outcome hmax hpath hfile hbounded
  cases hout with
  | failed e =>
    rw [arrivalStep_of_error hresult]
    exact ⟨recent, hfile, hbounded, .inl rfl⟩
  | refused _ =>
    rw [arrivalStep_of_ok hresult]
    exact ⟨recent, hfile, hbounded, .inl rfl⟩
  | admitted hroom =>
    rw [arrivalStep_of_ok hresult]
    exact ⟨_, .written, bounded_recordIn hbounded hroom, .inr rfl⟩
  | recorded hroom e =>
    rw [arrivalStep_of_error hresult]
    exact ⟨_, .written, bounded_recordIn hbounded hroom, .inr rfl⟩

end

theorem OwnFile.step (h : OwnFile limiter monitors) (a : Arrival) :
    OwnFile limiter (arrivalStep serde limiter monitors a).2 := by
  obtain ⟨recent, hfile, hbounded⟩ := h
  obtain ⟨recent', hfile', hbounded', -⟩ := holds_after_check hmax hpath hfile hbounded
  exact ⟨recent', hfile', hbounded'⟩

theorem OwnFile.run (h : OwnFile limiter monitors) (events : List Arrival) :
    OwnFile limiter (stateAfter (arrivalStep serde limiter) monitors events) := by
  induction events generalizing monitors with
  | nil => exact h
  | cons a rest ih => exact ih (h.step hmax hpath a)

/-- The queues of the file implement the policy. -/
theorem persistent_implements : Implements (arrivalStep serde limiter) Arrival.reportType
      (fun a => a.clock.nowMs.toNat) limiter.windowMs limiter.maxEvents
      (AfterWindow limiter.window) (OwnFile limiter) (fileQueue serde) where
  decides := by
    intro monitors a hown ha _
    obtain ⟨recent, hfile, hbounded⟩ := hown
    rw [fileQueue_of_holds hfile fun other => (hbounded other).trans hmax,
      ← keptOf_toNat (windowMs_le_nowMs ha), length_map,
      arrivalStep_afterWindow hmax hpath hfile hbounded ha]
    by_cases hfull : limiter.maxEvents ≤ (keptOf limiter recent a.reportType a.clock.nowMs).length
    · rw [if_pos hfull, decide_eq_false (not_lt.mpr hfull)]
    · rw [if_neg hfull, decide_eq_true (not_le.mp hfull)]
  admitted := by
    intro monitors a hown ha _ hyes
    obtain ⟨recent, hfile, hbounded⟩ := hown
    rw [fileQueue_of_holds hfile fun other => (hbounded other).trans hmax,
      ← keptOf_toNat (windowMs_le_nowMs ha)]
    rw [arrivalStep_afterWindow hmax hpath hfile hbounded ha] at hyes ⊢
    split at hyes
    · cases hyes
    next hfull =>
    have hroom := not_le.mp hfull
    rw [if_neg hfull, fileQueue_of_holds .written fun other =>
      (bounded_recordIn hbounded hroom other).trans hmax, recordIn_of_self, map_append]
    rfl
  refused := by
    intro monitors a hown ha _ hno
    obtain ⟨recent, hfile, hbounded⟩ := hown
    right
    rw [arrivalStep_afterWindow hmax hpath hfile hbounded ha] at hno ⊢
    split at hno
    · next hfull =>
        rw [if_pos hfull]
        rfl
    · cases hno
  others := by
    intro monitors a other hown ha hne
    obtain ⟨recent, hfile, hbounded⟩ := hown
    rw [arrivalStep_afterWindow hmax hpath hfile hbounded ha]
    split
    · rfl
    next hfull =>
    have hroom := not_le.mp hfull
    rw [fileQueue_of_holds .written fun other =>
        (bounded_recordIn hbounded hroom other).trans hmax, recordIn_of_ne hne,
      fileQueue_of_holds hfile fun other => (hbounded other).trans hmax]
  keeps := fun _ a hown _ => hown.step hmax hpath a

end Persistent

/-- **The sliding-window rate limit.** In memory an event is admitted exactly if
fewer than the limit of its type were admitted in the window that ends with it.
With a state file the same holds across monitors and their restarts, with the
limit capped and times and window in whole milliseconds. -/
theorem rate_limit_policy (serde : RateSerde) (maxEvents window : Nat) (path : String) (p : Nat) :
    RateLimited (arrivalStep serde (.new maxEvents window)) (fun a => a.clock.instant)
      window maxEvents (InProcess p) ∧
    RateLimited (arrivalStep serde (.withStatePath maxEvents window path))
      (fun a => a.clock.nowMs.toNat) (tryFromOrMax (window / 1000000))
      (min maxEvents maxPersistedEventsPerType) (AfterWindow window) := by
  constructor
  · exact .of_policy (inMemory_implements.policy trivial fun _ => rfl)
  have hcap : (withStatePath maxEvents window path).maxEvents ≤
      maxPersistedEventsPerType := min_le_right _ _
  exact .of_policy ((persistent_implements hcap rfl).policy ownFile_fresh fun _ => rfl)

/-! ### Two events -/

/-- An event at monitor 0, this long after the epoch. -/
def crashAt (ns : Nat) : Arrival := ⟨[], 0, .crash, ⟨ns, some ns⟩, quiet⟩

/-- With the clock read to the nanosecond the limit is not kept: two crashes
0.9991 s apart are both admitted by a limiter of one in a second. -/
theorem rate_limit_rounds_down : ¬ RateLimited
    (arrivalStep compactSerde (.withStatePath 1 1000000000 "state"))
    (fun a => a.clock.sinceEpoch.getD 0) 1000000000
    (min 1 maxPersistedEventsPerType) (AfterWindow 1000000000) := by
  intro h
  have hfirst : (withStatePath 1 1000000000 "state").window ≤ 5000900000 := by decide
  have hsecond : (withStatePath 1 1000000000 "state").window ≤ 6000000000 := by decide
  have horder : InOrder (fun a => a.clock.sinceEpoch.getD 0)
      ([crashAt 5000900000] ++ [crashAt 6000000000]) := by simp [InOrder, crashAt]
  have hvalid : ∀ a ∈ [crashAt 5000900000] ++ [crashAt 6000000000], AfterWindow 1000000000 a := by
    intro a ha
    rcases mem_pair.mp ha with rfl | rfl
    · exact ⟨rfl, _, rfl, hfirst⟩
    · exact ⟨rfl, _, rfl, hsecond⟩
  have hiff := h.admits_iff _ _ horder hvalid
  exact absurd (hiff.mp rfl) (by decide)

/-! ## A clock that goes back -/

/-- The queues of the file are sorted and from before `latest`. -/
def SortedUpTo (recent : Recent) (latest : Nat) : Prop :=
  ∀ reportType, ((recent.of reportType).map UInt64.toNat).Pairwise (· ≤ ·) ∧
    ∀ t ∈ recent.of reportType, t.toNat ≤ latest

theorem SortedUpTo.later {latest now} (h : SortedUpTo recent latest)
    (hle : latest ≤ now) : SortedUpTo recent now :=
  fun reportType => ⟨(h reportType).1, fun t ht => ((h reportType).2 t ht).trans hle⟩

theorem SortedUpTo.recordIn (h : SortedUpTo recent now.toNat) (reportType : ReportType) :
    SortedUpTo (recordIn limiter recent reportType now) now.toNat := by
  intro other
  by_cases heq : other = reportType
  · subst heq
    obtain ⟨hsorted, hle⟩ := h other
    have hsub : (keptOf limiter recent other now).Sublist (recent.of other) := dropWhile_sublist _
    have hkept : ∀ t ∈ keptOf limiter recent other now, t.toNat ≤ now.toNat :=
      fun t ht => hle t (hsub.subset ht)
    rw [recordIn_of_self, map_append, pairwise_append]
    refine ⟨⟨hsorted.sublist (hsub.map _), pairwise_singleton _ _, ?_⟩, ?_⟩
    · intro t ht u hu
      obtain ⟨s, hs, rfl⟩ := mem_map.mp ht
      obtain ⟨r, hr, rfl⟩ := mem_map.mp hu
      rw [mem_singleton.mp hr]
      exact hkept s hs
    · intro t ht
      rcases mem_append.mp ht with ht | ht
      · exact hkept t ht
      · rw [mem_singleton.mp ht]
  · rw [recordIn_of_ne heq]
    exact h other

/-- If the eviction leaves a sorted queue alone, none of it has expired. -/
theorem lt_of_nothing_evicted {windowMs queue} (hsorted : (queue.map UInt64.toNat).Pairwise (· ≤ ·))
    (hkept : keptTimestamps windowMs now queue = queue) :
    ∀ t ∈ queue, now.toNat < t.toNat + windowMs := by
  cases queue with
  | nil => exact fun t ht => absurd ht not_mem_nil
  | cons front rest =>
    have hfront : ¬ front.toNat ≤ now.toNat - windowMs := by
      intro hle
      have hlen := congrArg List.length hkept
      rw [keptTimestamps, dropWhile_cons_of_pos (by simpa using hle)] at hlen
      have hrest := (dropWhile_sublist (l := rest)
        fun t => decide (t.toNat ≤ now.toNat - windowMs)).length_le
      rw [length_cons] at hlen
      omega
    intro t ht
    have hle : front.toNat ≤ t.toNat := by
      rcases mem_cons.mp ht with rfl | ht
      · exact le_refl _
      · rw [map_cons, pairwise_cons] at hsorted
        exact hsorted.1 _ (mem_map_of_mem ht)
    omega

section Rejections

variable {serde : RateSerde} {limiter : RateLimiter}
  (hmax : limiter.maxEvents ≤ maxPersistedEventsPerType) (hpath : limiter.statePath.isNone = false)
include hmax hpath

/-- While the clock does not go back the queues stay sorted, whatever fails. -/
theorem sorted_of_inOrder {events latest} (horder : InOrder (fun a => a.clock.nowMs.toNat) events)
    (hlatest : ∀ a ∈ events, a.clock.nowMs.toNat ≤ latest) :
    ∃ recent, FileHolds recent (stateAfter (arrivalStep serde limiter) .fresh events).file ∧
      recent.Bounded limiter.maxEvents ∧ SortedUpTo recent latest := by
  induction events using List.reverseRecOn generalizing latest with
  | nil =>
    refine ⟨fun _ => none, .absent fun _ => rfl, fun _ => zero_le _, fun _ => ?_⟩
    exact ⟨.nil, fun t ht => absurd ht not_mem_nil⟩
  | append_singleton past a ih =>
    obtain ⟨hpast, hle⟩ := horder.init
    obtain ⟨recent, hfile, hbounded, hsorted⟩ := ih hpast hle
    have hlast : a.clock.nowMs.toNat ≤ latest := hlatest a (by simp)
    rw [stateAfter_snoc]
    obtain ⟨recent', hfile', hbounded', hrecent⟩ :=
      holds_after_check hmax hpath hfile hbounded
    refine ⟨recent', hfile', hbounded', ?_⟩
    rcases hrecent with rfl | rfl
    · exact hsorted.later hlast
    · exact (hsorted.recordIn a.reportType).later hlast

/-- A rejection finds the queue full and evicts nothing. -/
theorem full_of_rejected {monitors recent a memory} (hfile : FileHolds recent monitors.file)
    (hbounded : recent.Bounded limiter.maxEvents)
    (hreject : checkArrival serde limiter monitors a = .ok false memory) :
    (recent.of a.reportType).length = limiter.maxEvents ∧
      keptOf limiter recent a.reportType a.clock.nowMs = recent.of a.reportType := by
  have hout : PersistentOutcome limiter recent a.reportType a.clock.nowMs
      (monitors.memoryFor a) (.ok false memory) :=
    hreject ▸ checkArrival_outcome hmax hpath hfile hbounded
  cases hout with
  | refused hfull =>
    have hsub : (keptOf limiter recent a.reportType a.clock.nowMs).Sublist
        (recent.of a.reportType) := dropWhile_sublist _
    have hle := hbounded a.reportType
    have hlen := hsub.length_le
    exact ⟨by omega, hsub.eq_of_length (by omega)⟩

end Rejections

/-- **When a rejection is earned.** Whatever the wall clock did and whichever
calls failed, a rejected event has at least the limit of recorded timestamps in
its window exactly if all recorded timestamps of its type are in the window;
they are if the clock never went back. -/
theorem rejection_earned_iff (serde : RateSerde) (maxEvents window : Nat) (path : String)
    (past : List Arrival) (a : Arrival) (memory : RateMemory)
    (hreject : checkArrival serde (.withStatePath maxEvents window path)
      (stateAfter (arrivalStep serde (.withStatePath maxEvents window path)) .fresh past) a =
        .ok false memory) :
    let recorded := fileQueue serde
      (stateAfter (arrivalStep serde (.withStatePath maxEvents window path)) .fresh past)
      a.reportType
    let inWindow := within (tryFromOrMax (window / 1000000)) a.clock.nowMs.toNat
    (min maxEvents maxPersistedEventsPerType ≤ recorded.countP inWindow ↔
      ∀ t ∈ recorded, inWindow t = true) ∧
    (InOrder (fun b => b.clock.nowMs.toNat) (past ++ [a]) →
      min maxEvents maxPersistedEventsPerType ≤ recorded.countP inWindow) := by
  intro recorded inWindow
  have hcap : (withStatePath maxEvents window path).maxEvents ≤
      maxPersistedEventsPerType := min_le_right _ _
  have hiff : min maxEvents maxPersistedEventsPerType ≤ recorded.countP inWindow ↔
      ∀ t ∈ recorded, inWindow t = true := by
    obtain ⟨recent, hfile, hbounded⟩ := ownFile_fresh.run hcap rfl past
    obtain ⟨hlength, -⟩ := full_of_rejected hcap rfl hfile hbounded hreject
    have hrecorded : recorded = (recent.of a.reportType).map UInt64.toNat :=
      fileQueue_of_holds hfile (fun other => (hbounded other).trans hcap)
    have hlimit : recorded.length = min maxEvents maxPersistedEventsPerType := by
      rw [hrecorded, length_map]
      exact hlength
    rw [← hlimit, ← countP_eq_length]
    exact ⟨fun h => le_antisymm countP_le_length h, fun h => h.ge⟩
  refine ⟨hiff, fun horder => hiff.mpr ?_⟩
  obtain ⟨hpast, hle⟩ := horder.init
  obtain ⟨recent, hfile, hbounded, hsorted⟩ := sorted_of_inOrder hcap rfl hpast hle
  obtain ⟨-, hkept⟩ := full_of_rejected hcap rfl hfile hbounded hreject
  have hrecorded : recorded = (recent.of a.reportType).map UInt64.toNat :=
    fileQueue_of_holds hfile (fun other => (hbounded other).trans hcap)
  obtain ⟨hpairs, hbefore⟩ := hsorted a.reportType
  intro t ht
  rw [hrecorded] at ht
  obtain ⟨stamp, hstamp, rfl⟩ := mem_map.mp ht
  have hfresh := lt_of_nothing_evicted hpairs hkept stamp hstamp
  simp only [inWindow, within, decide_eq_true_eq]
  exact ⟨hfresh, hbefore stamp hstamp⟩

/-- A limiter of one crash a minute, after one at 1000 s. -/
def minuteLimiter : RateLimiter := .withStatePath 1 60000000000 "state"

def afterCrashAt1000 : Monitors :=
  stateAfter (arrivalStep compactSerde minuteLimiter) .fresh [crashAt 1000000000000]

/-- With the clock set back to 500 s the next crash is rejected. -/
theorem rejected_after_correction :
    checkArrival compactSerde minuteLimiter afterCrashAt1000 (crashAt 500000000000) =
      .ok false (afterCrashAt1000.memoryFor (crashAt 500000000000)) := by
  rfl

/-- A crash is silenced with no admission in its window. -/
theorem silenced_by_clock_correction :
    ∃ memory, checkArrival compactSerde minuteLimiter afterCrashAt1000
        (crashAt 500000000000) = .ok false memory ∧
      (fileQueue compactSerde afterCrashAt1000 .crash).countP
        (within minuteLimiter.windowMs (crashAt 500000000000).clock.nowMs.toNat) = 0 := by
  exact ⟨_, rejected_after_correction, by decide⟩

theorem rejection_earned_iff_minute : ¬ (∀ t ∈ fileQueue compactSerde afterCrashAt1000 .crash,
      within (tryFromOrMax (60000000000 / 1000000))
        (crashAt 500000000000).clock.nowMs.toNat t = true) := by
  have hiff := (rejection_earned_iff compactSerde 1 60000000000 "state"
    [crashAt 1000000000000] (crashAt 500000000000) _ rejected_after_correction).1
  intro hall
  exact absurd (hiff.mpr hall) (by decide)

end CrashMonitor.Filters
