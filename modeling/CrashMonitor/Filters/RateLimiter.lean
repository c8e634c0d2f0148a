import CrashMonitor.Filters.RateState
import CrashMonitor.Lib.Fallible
import CrashMonitor.Lib.SlidingWindow

/-!
# The rate limiter

`RateLimiter` of `filters/rate_limiter.rs`, which caps the reports of each
type within a sliding window. Without a state file the queues live in the
memory of one monitor; with one they are read and written under its lock at
every check, so that they outlive the monitor. Durations and instants are in
nanoseconds, the timestamps of the file in milliseconds of wall-clock time.
-/

namespace CrashMonitor.Filters

open Lib CompactText SlidingWindow EventLoop MachineInt Fallible Function List
variable {reportType : ReportType} {faults : Faults} {recent : Recent}

structure RateLimiter where
  window : Nat
  maxEvents : Nat
  statePath : Option String

/-- The queues of one monitor, and the state file. -/
structure RateMemory where
  recent : ReportType → List Nat
  file : Option Text

section

variable (memory : RateMemory) (reportType : ReportType) (queue : List Nat) (maxEvents window : Nat)

def RateLimiter.new : RateLimiter := ⟨window, maxEvents, none⟩

def RateLimiter.withStatePath (path : String) : RateLimiter :=
  ⟨window, min maxEvents maxPersistedEventsPerType, some path⟩

/-- `Duration::as_millis` as a `u64`. -/
def RateLimiter.windowMs (limiter : RateLimiter) : Nat := tryFromOrMax (limiter.window / 1000000)

def RateMemory.setRecent : RateMemory :=
  { memory with recent := update memory.recent reportType queue }

def RateMemory.setFile (file : Option Text) : RateMemory := { memory with file := file }

@[simp] theorem RateMemory.setRecent_self :
    (memory.setRecent reportType queue).recent reportType = queue := update_self ..

end

theorem RateMemory.setRecent_of_ne (memory : RateMemory) {other}
    (h : other ≠ reportType) (queue : List Nat) :
    (memory.setRecent reportType queue).recent other = memory.recent other := update_of_ne h ..

section

variable (serde : RateSerde) (limiter : RateLimiter) (faults : Faults) (reportType : ReportType)
  (clock : Clock) (now : Nat)

/-- A check that can fail; what it changed before the failure stays. -/
abbrev Check := EStateM String RateMemory

def call (c : RateCall) (what : String) : Check Unit :=
  match faults c with
  | none => pure ()
  | some e => throw (what ++ e)

/-! ## Queues in memory -/

/-- The eviction loop, with a checkpoint at every element it looks at. -/
def evictExpired (faults : Faults) (window now : Nat) : Nat → List Nat → Option String × List Nat
  | _, [] => (none, [])
  | place, front :: rest =>
    match faults (.checkpoint place) with
    | some e => (some e, front :: rest)
    | none =>
      if window ≤ now - front then evictExpired faults window now (place + 1) rest
      else (none, front :: rest)

/-- `entry.push_back(now)` and the last checkpoint. -/
def recordNow (kept : List Nat) (now : Nat) : Check Bool := do
  modify fun memory => memory.setRecent reportType (kept ++ [now])
  call faults (.checkpoint 2) ""
  pure true

/-- `check_and_record` after the eviction. -/
def recordUnlessFull (evicted : Option String × List Nat) : Check Bool :=
  match evicted.1 with
  | some e => throw e
  | none =>
    if limiter.maxEvents ≤ evicted.2.length then pure false
    else recordNow faults reportType evicted.2 now

/-- `check_and_record` from the eviction on. -/
def evictAndRecord : Check Bool := do
  let memory ← get
  let evicted := evictExpired faults limiter.window now 3 (memory.recent reportType)
  set (memory.setRecent reportType evicted.2)
  recordUnlessFull limiter faults reportType now evicted

/-- `check_and_record`: contention fails open. -/
def checkAndRecord : Check Bool := do
  call faults (.checkpoint 0) ""
  if (faults .recentLock).isSome then pure true
  else do
    call faults (.checkpoint 1) ""
    evictAndRecord limiter faults reportType now

/-! ## Queues in the state file -/

/-- `quarantine_invalid_state`: the file is renamed away. -/
def quarantineInvalidState : Check Unit := do
  call faults .renameInvalid "cannot quarantine invalid rate-limit state: "
  modify fun memory => memory.setFile none
  call faults .syncQuarantine "cannot sync rate-limit state directory: "

/-- `persist_state`: written aside and renamed into place. -/
def persistState (recent : Recent) : Check Unit := do
  call faults .ensureDirectory ""
  if (stateText recent).length > maxRateStateBytes then
    throw s!"serialized rate-limit state exceeds {maxRateStateBytes} bytes"
  else do
    call faults .createTemporary ""
    call faults .writeTemporary "cannot write rate-limit state: "
    call faults .syncTemporary "cannot sync rate-limit state: "
    call faults .publishState "cannot publish rate-limit state: "
    modify fun memory => memory.setFile (some (stateText recent))
    call faults .syncDirectory "cannot sync rate-limit state directory: "

/-- The queues of the file; an invalid file is replaced by empty ones. -/
def recentOrReset : Check (Recent × Option String) := do
  let memory ← get
  match loadState serde faults memory.file with
  | .ok recent => pure (recent, none)
  | .error (.recoverable e) => do
    quarantineInvalidState faults
    pure (fun _ => none, some e)
  | .error (.fatal e) => throw e

/-- The answer of a check that was recorded. -/
def recordedAnswer (recoveryReason : Option String) : Check Bool :=
  match recoveryReason with
  | some reason => throw (reason ++ "; the invalid state was quarantined and reset, and the " ++
      "current event was recorded in the replacement state")
  | none => pure true

/-- What the eviction leaves of a queue: timestamps after the cutoff from the
first such on. -/
def keptTimestamps (windowMs : Nat) (now : UInt64) (queue : List UInt64) : List UInt64 :=
  queue.dropWhile fun t => t.toNat ≤ now.toNat - windowMs

/-- `check_and_record_persistent` from the loaded queues on. -/
def evictAndPersist (now : UInt64) (loaded : Recent × Option String) : Check Bool :=
  let entry := keptTimestamps limiter.windowMs now (loaded.1.of reportType)
  if limiter.maxEvents ≤ entry.length then pure false
  else do
    persistState faults (update loaded.1 reportType (some (entry ++ [now])))
    call faults (.checkpoint 1) ""
    recordedAnswer loaded.2

/-- `check_and_record_persistent`. -/
def checkAndRecordPersistent (now : UInt64) : Check Bool :=
  if limiter.statePath.isNone then throw "persistent rate-limit path is unavailable"
  else do
    call faults .stateLock ""
    call faults (.checkpoint 0) ""
    let loaded ← recentOrReset serde faults
    evictAndPersist limiter faults reportType now loaded

/-! ## The filter -/

/-- The clocks at a check; `none` is a wall clock before the epoch. -/
structure Clock where
  instant : Nat
  sinceEpoch : Option Nat

/-- The wall clock in whole milliseconds. -/
def Clock.nowMs : UInt64 := UInt64.ofNat (tryFromOrMax (clock.sinceEpoch.getD 0 / 1000000))

/-- `should_process`. -/
def shouldProcess : Check Bool :=
  if limiter.statePath.isSome then
    match clock.sinceEpoch with
    | none => throw "system clock precedes Unix epoch"
    | some _ => checkAndRecordPersistent serde limiter faults reportType clock.nowMs
  else checkAndRecord limiter faults reportType clock.instant

end

/-! ## Monitors that share the state file -/

/-- The memory of every monitor process, and the file. -/
structure Monitors where
  recent : Nat → ReportType → List Nat
  file : Option Text

def Monitors.fresh : Monitors := ⟨fun _ _ => [], none⟩

/-- An event at monitor `proc`; the monitors `restarted` began anew since the
last one. -/
structure Arrival where
  restarted : List Nat
  proc : Nat
  reportType : ReportType
  clock : Clock
  faults : Faults

/-- The memory the check of an arrival runs on. -/
def Monitors.memoryFor (monitors : Monitors) (a : Arrival) : RateMemory :=
  ⟨if a.proc ∈ a.restarted then fun _ => [] else monitors.recent a.proc, monitors.file⟩

/-- All monitors once the check has left its memory behind. -/
def Monitors.after (monitors : Monitors) (a : Arrival) (memory : RateMemory) : Monitors where
  recent := update
    (fun p => if p ∈ a.restarted then fun _ => [] else monitors.recent p) a.proc memory.recent
  file := memory.file

variable (serde : RateSerde) (limiter : RateLimiter)

/-- The check of an arrival; checks are serialized by the lock. -/
def checkArrival (monitors : Monitors) (a : Arrival) : EStateM.Result String RateMemory Bool :=
  shouldProcess serde limiter a.faults a.reportType a.clock (monitors.memoryFor a)

/-- An arrival: whether it was admitted, and the monitors after it. -/
def arrivalStep (monitors : Monitors) (a : Arrival) : Bool × Monitors :=
  match checkArrival serde limiter monitors a with
  | .ok admitted memory => (admitted, monitors.after a memory)
  | .error _ memory => (false, monitors.after a memory)

section

variable {serde limiter} {monitors : Monitors} {a : Arrival} {memory : RateMemory}

theorem arrivalStep_of_ok {answer} (h : checkArrival serde limiter monitors a = .ok answer memory) :
    arrivalStep serde limiter monitors a = (answer, monitors.after a memory) := by
  rw [arrivalStep, h]

theorem arrivalStep_of_error {e} (h : checkArrival serde limiter monitors a = .error e memory) :
    arrivalStep serde limiter monitors a = (false, monitors.after a memory) := by
  rw [arrivalStep, h]

end

/-! ## Checks in memory -/

/-- Every call succeeds. -/
def quiet : Faults := fun _ => none

theorem call_of_none {c} (h : faults c = none) {what memory} :
    call faults c what memory = .ok () memory := by
  rw [call, h]
  rfl

theorem call_of_some {c e} (h : faults c = some e) {what memory} :
    call faults c what memory = .error (what ++ e) memory := by
  rw [call, h]
  rfl

theorem evictExpired_quiet (window now place : Nat) (queue : List Nat) :
    evictExpired quiet window now place queue =
      (none, queue.dropWhile fun t => window ≤ now - t) := by
  induction queue generalizing place with
  | nil => rfl
  | cons front rest ih =>
    show (if window ≤ now - front then evictExpired quiet window now (place + 1) rest
      else (none, front :: rest)) = _
    by_cases h : window ≤ now - front
    · rw [if_pos h, ih, dropWhile_cons_of_pos (by simpa using h)]
    · rw [if_neg h, dropWhile_cons_of_neg (by simpa using h)]

/-- What the eviction leaves of a queue in memory. -/
def keptInstants (window now : Nat) (queue : List Nat) : List Nat :=
  queue.dropWhile fun t => window ≤ now - t

theorem checkAndRecord_quiet (reportType : ReportType) (now : Nat) (memory : RateMemory)
    {kept} (hkept : kept = keptInstants limiter.window now (memory.recent reportType)) :
    checkAndRecord limiter quiet reportType now memory =
      if limiter.maxEvents ≤ kept.length then .ok false (memory.setRecent reportType kept)
      else .ok true ((memory.setRecent reportType kept).setRecent reportType (kept ++ [now])) := by
  have hevict : evictExpired quiet limiter.window now 3 (memory.recent reportType) =
      (none, kept) := hkept ▸ evictExpired_quiet ..
  show recordUnlessFull limiter quiet reportType now
    (evictExpired quiet limiter.window now 3 (memory.recent reportType))
    (memory.setRecent reportType
      (evictExpired quiet limiter.window now 3 (memory.recent reportType)).2) = _
  rw [hevict, recordUnlessFull]
  by_cases hfull : limiter.maxEvents ≤ kept.length
  · simp only [if_pos hfull]
    rfl
  · simp only [if_neg hfull]
    rfl

/-! ## Checks with a state file -/

variable {serde limiter}

/-- A call either has no effect on what follows or is the end of the check. -/
theorem call_then {c what} {α : Type} {k memory}
    {P : EStateM.Result String RateMemory α → Prop} (hk : P (k memory))
    (herror : ∀ e, P (.error e memory)) : P ((call faults c what >>= fun _ => k) memory) := by
  cases h : faults c with
  | none =>
    rw [bind_of_ok (call_of_none h)]
    exact hk
  | some e =>
    rw [bind_of_error (call_of_some h)]
    exact herror _

theorem persistState_cases {faults}
    (hsize : (stateText recent).length ≤ maxRateStateBytes) {memory} :
    persistState faults recent memory = .ok () (memory.setFile (some (stateText recent))) ∨
      (∃ e, persistState faults recent memory = .error e memory) ∨
      ∃ e, persistState faults recent memory =
        .error e (memory.setFile (some (stateText recent))) := by
  have hfits : ¬ (stateText recent).length > maxRateStateBytes := Nat.not_lt.mpr hsize
  let P : EStateM.Result String RateMemory Unit → Prop := fun r =>
    r = .ok () (memory.setFile (some (stateText recent))) ∨ (∃ e, r = .error e memory) ∨
      ∃ e, r = .error e (memory.setFile (some (stateText recent)))
  have herror : ∀ e, P (.error e memory) := fun e => .inr (.inl ⟨e, rfl⟩)
  unfold persistState
  simp only [if_neg hfits]
  show P _
  apply call_then _ herror
  apply call_then _ herror
  apply call_then _ herror
  apply call_then _ herror
  apply call_then _ herror
  -- from here on the file is in place
  show call faults .syncDirectory _ _ = _ ∨ _
  cases hsync : faults .syncDirectory with
  | none => exact .inl (call_of_none hsync)
  | some e => exact .inr (.inr ⟨_, call_of_some hsync⟩)

theorem persistState_quiet (hsize : (stateText recent).length ≤ maxRateStateBytes)
    (memory : RateMemory) : persistState quiet recent memory =
      .ok () (memory.setFile (some (stateText recent))) := by
  unfold persistState
  simp only [if_neg (Nat.not_lt.mpr hsize)]
  rfl

section

variable (limiter : RateLimiter) (recent : Recent) (reportType : ReportType) (now : UInt64)

/-- What the eviction at an event leaves of the queue of its type. -/
def keptOf : List UInt64 := keptTimestamps limiter.windowMs now (recent.of reportType)

/-- The queues with an event recorded. -/
def recordIn : Recent :=
  update recent reportType (some (keptOf limiter recent reportType now ++ [now]))

end

/-- How a check on a file of the limiter's own can end. -/
inductive PersistentOutcome (limiter : RateLimiter) (recent : Recent)
    (reportType : ReportType) (now : UInt64) (memory : RateMemory) :
    EStateM.Result String RateMemory Bool → Prop where
  | failed (e : String) : PersistentOutcome limiter recent reportType now memory (.error e memory)
  | refused (h : limiter.maxEvents ≤ (keptOf limiter recent reportType now).length) :
      PersistentOutcome limiter recent reportType now memory (.ok false memory)
  | admitted (h : (keptOf limiter recent reportType now).length < limiter.maxEvents) :
      PersistentOutcome limiter recent reportType now memory (.ok true
        (memory.setFile (some (stateText (recordIn limiter recent reportType now)))))
  /-- The event was written, but a later call failed. -/
  | recorded (h : (keptOf limiter recent reportType now).length < limiter.maxEvents)
      (e : String) : PersistentOutcome limiter recent reportType now memory (.error e
        (memory.setFile (some (stateText (recordIn limiter recent reportType now)))))

theorem recordIn_of_self (recent : Recent) (reportType : ReportType) (now : UInt64) :
    (recordIn limiter recent reportType now).of reportType =
      keptOf limiter recent reportType now ++ [now] := by
  rw [Recent.of, recordIn, update_self, Option.getD_some]

theorem recordIn_of_ne {other now} (h : other ≠ reportType) :
    (recordIn limiter recent reportType now).of other = recent.of other := by
  rw [Recent.of, recordIn, update_of_ne h, Recent.of]

theorem bounded_recordIn {limit now} (hbounded : recent.Bounded limit)
    (hroom : (keptOf limiter recent reportType now).length < limit) :
    (recordIn limiter recent reportType now).Bounded limit := by
  intro other
  by_cases h : other = reportType
  · subst h
    rw [recordIn_of_self, length_append, length_singleton]
    exact hroom
  · rw [recordIn_of_ne h]
    exact hbounded other

theorem loadState_cases {file} (h : FileHolds recent file)
    (hbounded : recent.Bounded maxPersistedEventsPerType) {faults} :
    loadState serde faults file = .ok recent ∨
      ∃ e, loadState serde faults file = .error (.fatal e) := by
  cases hopen : faults .openState with
  | some e => exact .inr ⟨e, by simp only [loadState, hopen]⟩
  | none =>
    cases h with
    | absent hnone =>
      left
      simp only [loadState, hopen, funext hnone]
    | written =>
      cases hinspect : faults .inspectState with
      | some e =>
        right
        refine ⟨s!"cannot inspect rate-limit state: {e}", ?_⟩
        simp only [loadState, hopen, hinspect]
      | none =>
        cases hread : faults .readState with
        | none => exact .inl (loadState_of_holds .written hbounded hopen hinspect hread)
        | some e =>
          right
          refine ⟨s!"cannot read rate-limit state: {e}", ?_⟩
          simp only [loadState, hopen, hinspect, hread]
          rw [if_neg (Nat.not_lt.mpr (stateText_length_le hbounded))]

theorem recentOrReset_of_ok {memory} (h : loadState serde faults memory.file = .ok recent) :
    recentOrReset serde faults memory = .ok (recent, none) memory := by
  unfold recentOrReset
  rw [bind_of_ok (show (get : Check RateMemory) memory = .ok memory memory from rfl), h]
  rfl

theorem recentOrReset_of_fatal {e memory}
    (h : loadState serde faults memory.file = .error (.fatal e)) :
    recentOrReset serde faults memory = .error e memory := by
  unfold recentOrReset
  rw [bind_of_ok (show (get : Check RateMemory) memory = .ok memory memory from rfl), h]
  rfl

section Outcome

variable {recent : Recent} {memory : RateMemory}
  (hmax : limiter.maxEvents ≤ maxPersistedEventsPerType)
  (hbounded : recent.Bounded limiter.maxEvents)
include hmax hbounded

theorem stateText_recordIn_length_le {reportType now}
    (hroom : (keptOf limiter recent reportType now).length < limiter.maxEvents) :
    (stateText (recordIn limiter recent reportType now)).length ≤ maxRateStateBytes :=
  stateText_length_le fun other => (bounded_recordIn hbounded hroom other).trans hmax

theorem evictAndPersist_outcome {faults reportType now} :
    PersistentOutcome limiter recent reportType now memory
      (evictAndPersist limiter faults reportType now (recent, none) memory) := by
  have hentry : keptTimestamps limiter.windowMs now (recent.of reportType) =
      keptOf limiter recent reportType now := rfl
  simp only [evictAndPersist, hentry]
  by_cases hfull : limiter.maxEvents ≤ (keptOf limiter recent reportType now).length
  · rw [if_pos hfull]
    exact .refused hfull
  rw [if_neg hfull]
  have hroom := Nat.not_le.mp hfull
  have hsize := stateText_recordIn_length_le hmax hbounded hroom
  rcases persistState_cases hsize with h | ⟨e, h⟩ | ⟨e, h⟩
  · have hwrite : (persistState faults (recordIn limiter recent reportType now) >>= fun _ =>
        call faults (.checkpoint 1) "" >>= fun _ => recordedAnswer none) memory =
        (call faults (.checkpoint 1) "" >>= fun _ => recordedAnswer none)
          (memory.setFile (some (stateText (recordIn limiter recent reportType now)))) :=
      bind_of_ok h
    rw [recordIn] at hwrite
    rw [hwrite]
    exact call_then (.admitted hroom) fun e => .recorded hroom e
  · exact (bind_of_error h).symm ▸ .failed e
  · exact (bind_of_error h).symm ▸ .recorded hroom e

variable (hpath : limiter.statePath.isNone = false) (hfile : FileHolds recent memory.file)
include hpath hfile

/-- **What a check can do.** Whatever fails, the file is as before or has the
event recorded. -/
theorem checkAndRecordPersistent_outcome (faults : Faults) (reportType : ReportType)
    (now : UInt64) : PersistentOutcome limiter recent reportType now memory
      (checkAndRecordPersistent serde limiter faults reportType now memory) := by
  unfold checkAndRecordPersistent
  rw [if_neg (by simp [hpath])]
  refine call_then ?_ fun e => .failed e
  refine call_then ?_ fun e => .failed e
  rcases loadState_cases hfile (fun other => (hbounded other).trans hmax)
    with hload | ⟨e, hload⟩
  · rw [bind_of_ok (recentOrReset_of_ok hload)]
    exact evictAndPersist_outcome hmax hbounded
  · rw [bind_of_error (recentOrReset_of_fatal hload)]
    exact .failed e

/-- Without failures the answer is whether the queue is full. -/
theorem checkAndRecordPersistent_quiet (reportType : ReportType) (now : UInt64) :
    checkAndRecordPersistent serde limiter quiet reportType now memory =
      if limiter.maxEvents ≤ (keptOf limiter recent reportType now).length then
        .ok false memory
      else .ok true
        (memory.setFile (some (stateText (recordIn limiter recent reportType now)))) := by
  have hload : loadState serde quiet memory.file = .ok recent :=
    loadState_of_holds hfile (fun other => (hbounded other).trans hmax) rfl rfl rfl
  unfold checkAndRecordPersistent
  rw [if_neg (by simp [hpath]), bind_of_ok (call_of_none rfl),
    bind_of_ok (call_of_none rfl), bind_of_ok (recentOrReset_of_ok hload)]
  have hentry : keptTimestamps limiter.windowMs now (recent.of reportType) =
      keptOf limiter recent reportType now := rfl
  simp only [evictAndPersist, hentry]
  by_cases hfull : limiter.maxEvents ≤ (keptOf limiter recent reportType now).length
  · rw [if_pos hfull, if_pos hfull]
    rfl
  have hsize := stateText_recordIn_length_le hmax hbounded (Nat.not_le.mp hfull)
  rw [if_neg hfull, if_neg hfull]
  exact bind_of_ok (persistState_quiet hsize memory)

end Outcome

/-! ## Any state file -/

section AnyFile

/-- Queues whose text is within the limit, so that it is written unless a call
fails, and is loaded back as it is. -/
structure Recent.Fits (recent : Recent) : Prop where
  bounded : recent.Bounded maxPersistedEventsPerType
  size : (stateText recent).length ≤ maxRateStateBytes
  persists : ∀ memory, persistState quiet recent memory =
    .ok () (memory.setFile (some (stateText recent)))
  loads : ∀ serde, loadState serde quiet (some (stateText recent)) = .ok recent

theorem fits_of_bounded (h : recent.Bounded maxPersistedEventsPerType) : recent.Fits :=
  ⟨h, stateText_length_le h, persistState_quiet (stateText_length_le h),
    fun _ => loadState_of_holds .written h rfl rfl rfl⟩

theorem bounded_recentOf {entries} : (recentOf entries).Bounded maxPersistedEventsPerType := by
  induction entries using List.reverseRecOn with
  | nil => exact fun _ => Nat.zero_le _
  | append_singleton entries entry ih =>
    intro reportType
    rw [recentOf, foldl_append, foldl_cons, foldl_nil, insertEntry, Recent.of]
    by_cases h : reportType = entry.reportType
    · rw [h, update_self, Option.getD_some, loadedTimestamps, length_reverse]
      exact length_take_le ..
    · rw [update_of_ne h]
      exact ih reportType

/-- Whatever the file holds, no more is loaded. -/
theorem bounded_of_loadState {file} (h : loadState serde faults file = .ok recent) :
    recent.Bounded maxPersistedEventsPerType := by
  unfold loadState at h
  repeat' split at h
  all_goals cases h
  · exact fun _ => Nat.zero_le _
  · exact bounded_recentOf

/-- What the file can be once the queues are loaded. -/
def Loads (file : Option Text) : EStateM.Result String RateMemory (Recent × Option String) → Prop
  | .ok loaded memory => loaded.1.Bounded maxPersistedEventsPerType ∧
      (memory.file = file ∨ memory.file = none)
  | .error _ memory => memory.file = file ∨ memory.file = none

theorem loads_recentOrReset (serde : RateSerde) (faults : Faults) (memory : RateMemory) :
    Loads memory.file (recentOrReset serde faults memory) := by
  cases hload : loadState serde faults memory.file with
  | ok recent =>
    rw [recentOrReset_of_ok hload]
    exact ⟨bounded_of_loadState hload, .inl rfl⟩
  | error e =>
    cases e with
    | fatal e =>
      rw [recentOrReset_of_fatal hload]
      exact .inl rfl
    | recoverable e =>
      unfold recentOrReset
      rw [bind_of_ok (show (get : Check RateMemory) memory = .ok memory memory from rfl), hload]
      simp only [quarantineInvalidState, bind_assoc]
      refine call_then ?_ fun _ => .inl rfl
      show Loads _ ((call faults .syncQuarantine _ >>= fun _ => pure _) (memory.setFile none))
      exact call_then ⟨fun _ => Nat.zero_le _, .inr rfl⟩ fun _ => .inr rfl

/-- What the file can be after checks. -/
def Left (file after : Option Text) : Prop :=
  after = file ∨ after = none ∨ ∃ recent : Recent, recent.Fits ∧ after = some (stateText recent)

def fileOf : EStateM.Result String RateMemory Bool → Option Text
  | .ok _ memory | .error _ memory => memory.file

def Leaves (file : Option Text) (result : EStateM.Result String RateMemory Bool) : Prop :=
  Left file (fileOf result)

theorem Left.trans {file between after} (h : Left file between)
    (hafter : Left between after) : Left file after := by
  rcases hafter with heq | hother
  · exact heq ▸ h
  · exact .inr hother

variable {memory : RateMemory} {now : UInt64} (hmax : limiter.maxEvents ≤ maxPersistedEventsPerType)
include hmax

theorem leaves_evictAndPersist (h : recent.Bounded maxPersistedEventsPerType)
    {reason} : Leaves memory.file
      (evictAndPersist limiter faults reportType now (recent, reason) memory) := by
  unfold evictAndPersist
  split
  · exact .inl rfl
  next hfull =>
    have hroom := (Nat.not_le.mp hfull).trans_le hmax
    have hfits := fits_of_bounded (bounded_recordIn h hroom)
    have hwritten : Leaves memory.file (.ok true (memory.setFile
        (some (stateText (recordIn limiter recent reportType now))))) := .inr (.inr ⟨_, hfits, rfl⟩)
    rcases persistState_cases hfits.size with hp | ⟨e, hp⟩ | ⟨e, hp⟩
    · refine (bind_of_ok hp).symm ▸ call_then ?_ fun _ => hwritten
      cases reason <;> exact hwritten
    · exact (bind_of_error hp).symm ▸ .inl rfl
    · exact (bind_of_error hp).symm ▸ hwritten

theorem leaves_check {serde} (hpath : limiter.statePath.isNone = false) :
    Leaves memory.file (checkAndRecordPersistent serde limiter faults reportType now memory) := by
  unfold checkAndRecordPersistent
  rw [if_neg (by simp [hpath])]
  refine call_then ?_ fun _ => .inl rfl
  refine call_then ?_ fun _ => .inl rfl
  have hloads := loads_recentOrReset serde faults memory
  cases hx : recentOrReset serde faults memory with
  | error e memory' =>
    rw [hx] at hloads
    rw [bind_of_error hx]
    exact hloads.imp_right .inl
  | ok loaded memory' =>
    rw [hx] at hloads
    rw [bind_of_ok hx]
    have hleaves : Leaves memory'.file (evictAndPersist limiter faults reportType now loaded
      memory') := leaves_evictAndPersist hmax hloads.1
    exact .trans (hloads.2.imp_right .inl) hleaves

omit hmax

/-- A persistent check: its type, its time, and what fails. -/
structure PersistentCheck where
  reportType : ReportType
  now : UInt64
  faults : Faults

def PersistentCheck.run (serde : RateSerde) (limiter : RateLimiter) (check : PersistentCheck)
    (file : Option Text) : EStateM.Result String RateMemory Bool :=
  checkAndRecordPersistent serde limiter check.faults check.reportType check.now ⟨fun _ => [], file⟩

/-- The file after checks one after another. -/
def fileAfter (serde : RateSerde) (limiter : RateLimiter) (file : Option Text)
    (checks : List PersistentCheck) : Option Text :=
  checks.foldl (fun file check => fileOf (check.run serde limiter file)) file

/-- **The state file fits.** Whatever the file held, after any checks it is as
before, or gone, or the text of queues that fit; and the next check writes
queues that fit. -/
theorem rate_state_fits (serde : RateSerde) (maxEvents window : Nat) (path : String)
    (file : Option Text) (checks : List PersistentCheck) (next : PersistentCheck) :
    let limiter := RateLimiter.withStatePath maxEvents window path
    let before := fileAfter serde limiter file checks
    Left file before ∧
    ∀ loaded memory, recentOrReset serde next.faults ⟨fun _ => [], before⟩ = .ok loaded memory →
      loaded.1.Bounded maxPersistedEventsPerType ∧
      ((keptOf limiter loaded.1 next.reportType next.now).length < limiter.maxEvents →
        (recordIn limiter loaded.1 next.reportType next.now).Fits) := by
  intro limiter before
  have hmax : limiter.maxEvents ≤ maxPersistedEventsPerType := Nat.min_le_right ..
  constructor
  · have hrun : ∀ checks, Left file (fileAfter serde limiter file checks) := by
      intro checks
      induction checks using List.reverseRecOn with
      | nil => exact .inl rfl
      | append_singleton checks check ih =>
        rw [fileAfter, foldl_append]
        exact ih.trans (leaves_check hmax rfl)
    exact hrun checks
  · intro loaded memory hload
    have hloads := loads_recentOrReset serde next.faults ⟨fun _ => [], before⟩
    rw [hload] at hloads
    exact ⟨hloads.1, fun hroom => fits_of_bounded (bounded_recordIn hloads.1 (hroom.trans_le hmax))⟩

end AnyFile

end CrashMonitor.Filters
