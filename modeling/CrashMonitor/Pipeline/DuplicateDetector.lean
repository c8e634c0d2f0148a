import CrashMonitor.Pipeline.Finalize
import CrashMonitor.Lib.MachineInt

/-!
# The duplicate detector

`preprocessors/duplicate.rs`: a pre-processor that remembers the keys of
recent events and flags an event whose key it has seen less than one window
ago. The memory is written when the event is looked at, long before its report
is committed.
-/

namespace CrashMonitor.Pipeline

open Capture EventLoop MachineInt List

/-! ## Keys and memory -/

structure DuplicateKey where
  fingerprint : String
  reportType : ReportType
  severity : String
  processName : String
  buildIdentity : String
  deriving DecidableEq

/-- Times are in nanoseconds on the monotonic clock. -/
structure DuplicateEntry where
  firstSeen : Nat
  lastObserved : Nat
  occurrences : Nat
  deriving DecidableEq

/-- The map `recent`; a key occurs once. -/
abbrev Recent := List (DuplicateKey × DuplicateEntry)

/-- A lookup in the memory: the key, its time, and whether it was known. -/
structure Sighting where
  key : DuplicateKey
  time : Nat
  known : Bool
  deriving DecidableEq

def BuildInfo.identity (build : BuildInfo) : String :=
  s!"{build.appVersion}:{build.buildNumber}:{build.gitHash}:{build.buildType}"

variable {V E : Type}

def buildIdentity (data : CollectedData E) : String :=
  match data.buildInfo with
  | some build => build.identity
  | none =>
    match data.raw.crashContext with
    | some build => build.identity
    | none => "unknown-build"

/-- `DuplicateDetector::key`. -/
def duplicateKey (event : CrashEvent) (data : CollectedData E) (fingerprint : String) :
    DuplicateKey where
  fingerprint := fingerprint
  reportType := event.reportType
  severity := if event.isCrash then "fatal" else "non_fatal"
  processName := event.processName
  buildIdentity := buildIdentity data

/-! ## One run -/

/-- What a run of the detector meets: the time, whether the deadline has
passed at each checkpoint and at the end, and the lock on the memory. -/
structure DetectorRun where
  now : Nat
  deadline : Nat → Bool
  lock : Except String Unit
  expired : Bool

structure Detection (E : Type) where
  result : Except String Unit
  data : CollectedData E
  recent : Recent
  sighting : Option Sighting

/-- The entries of the current window; durations saturate at zero. -/
def retained (window now : Nat) (recent : Recent) : Recent :=
  recent.filter fun entry => now - entry.2.firstSeen < window

/-- A known key is counted, a new one is entered. -/
def remember (now : Nat) (key : DuplicateKey) (recent : Recent) : Recent :=
  if recent.any (·.1 = key) then
    recent.map fun entry =>
      if entry.1 = key then
        (entry.1, { entry.2 with
          lastObserved := now
          occurrences := min (entry.2.occurrences + 1) u64Max })
      else entry
  else (key, ⟨now, now, 1⟩) :: recent

def deadlineReached : String := "plugin deadline reached"

/-- `process_at`. -/
def processAt (window : Nat) (run : DetectorRun) (event : CrashEvent)
    (data : CollectedData E) (recent : Recent) : Detection E :=
  if run.deadline 0 then ⟨.error deadlineReached, data, recent, none⟩
  else
    match data.fingerprint with
    | none => ⟨.ok (), data, recent, none⟩
    | some fingerprint =>
      let key := duplicateKey event data fingerprint
      match run.lock with
      | .error e => ⟨.error s!"duplicate state unavailable: {e}", data, recent, none⟩
      | .ok () =>
        if run.deadline 1 then ⟨.error deadlineReached, data, recent, none⟩
        else
          let recent := retained window run.now recent
          if run.deadline 2 then ⟨.error deadlineReached, data, recent, none⟩
          else
            let known := recent.any (·.1 = key)
            -- a flag that is set stays set if the last checkpoint fails
            { result := if run.deadline 3 then .error deadlineReached else .ok ()
              data := { data with
                duplicateDetected := data.duplicateDetected || known }
              recent := remember run.now key recent
              sighting := some ⟨key, run.now, known⟩ }

/-- The world with the memory of the detector and a log of its lookups. -/
structure DetectorWorld (V : Type) where
  rest : V
  recent : Recent
  sightings : List Sighting

/-- The detector as a plugin. -/
def duplicateDetector (window : Nat) (meets : V → DetectorRun × V) :
    PreProcessor (DetectorWorld V) E where
  name := "DuplicateDetector"
  execution := .cooperative
  priority := .high
  hardDependencies := ["Fingerprinter"]
  orderAfter := []
  isAvailable := true
  timeout := .categoryDefault
  process := fun event _ data world =>
    let run := meets world.rest
    let detection := processAt window run.1 event data world.recent
    let body : BodyResult Unit :=
      match detection.result with
      | .ok () => .ok ()
      | .error e => .err e
    (⟨body, none, run.1.expired, true⟩, detection.data,
      ⟨run.2, detection.recent, world.sightings ++ detection.sighting.toList⟩)

/-! ## What a run does to the memory -/

/-- Every entry stands for a lookup that found its key unknown. -/
def Remembers (sightings : List Sighting) (recent : Recent) : Prop :=
  ∀ entry ∈ recent, ⟨entry.1, entry.2.firstSeen, false⟩ ∈ sightings

theorem Remembers.mono {sightings more recent recent'} (h : Remembers sightings recent)
    (hrecent : recent' ⊆ recent) (hsightings : sightings ⊆ more) : Remembers more recent' :=
  fun entry hentry => hsightings (h entry (hrecent hentry))

theorem retained_subset (window now : Nat) (recent : Recent) :
    retained window now recent ⊆ recent := filter_subset_self _

/-- Counting a key keeps the time of its entry. -/
theorem mem_remember {now key recent entry} (h : entry ∈ remember now key recent) :
    (∃ old ∈ recent, old.1 = entry.1 ∧ old.2.firstSeen = entry.2.firstSeen) ∨
      recent.any (·.1 = key) = false ∧ entry = (key, ⟨now, now, 1⟩) := by
  unfold remember at h
  split at h
  · obtain ⟨old, hold, rfl⟩ := mem_map.mp h
    refine .inl ⟨old, hold, ?_⟩
    split <;> exact ⟨rfl, rfl⟩
  next hunknown =>
    rcases mem_cons.mp h with rfl | hold
    · exact .inr ⟨(Bool.not_eq_true _).mp hunknown, rfl⟩
    · exact .inl ⟨entry, hold, rfl, rfl⟩

/-- A new entry has been looked up now. -/
theorem Remembers.remember {sightings recent}
    (h : Remembers sightings recent) (now : Nat) (key : DuplicateKey) :
    Remembers (sightings ++ [⟨key, now, recent.any (·.1 = key)⟩]) (remember now key recent) := by
  intro entry hentry
  rcases mem_remember hentry with ⟨old, hold, hkey, hfirst⟩ | ⟨hunknown, rfl⟩
  · rw [← hkey, ← hfirst]
    exact mem_append_left _ (h old hold)
  · rw [hunknown]
    exact mem_append_right _ (mem_singleton_self _)

/-- A known key has an entry of the current window. -/
theorem exists_of_known {window now key recent}
    (h : (retained window now recent).any (·.1 = key) = true) :
    ∃ entry ∈ recent, entry.1 = key ∧ now - entry.2.firstSeen < window := by
  obtain ⟨entry, hentry, hkey⟩ := any_eq_true.mp h
  obtain ⟨hmem, hwindow⟩ := mem_filter.mp hentry
  exact ⟨entry, hmem, of_decide_eq_true hkey, of_decide_eq_true hwindow⟩

section

variable {window : Nat} {run : DetectorRun} {event : CrashEvent} {data : CollectedData E}
  {recent : Recent} {sightings : List Sighting}

/-- A run either ends before its lookup, or looks its key up in the current
window and remembers it. -/
theorem processAt_cases :
    ((processAt window run event data recent).sighting = none ∧
      (processAt window run event data recent).data = data ∧
      (processAt window run event data recent).recent ⊆ recent) ∨
    ∃ key, (processAt window run event data recent).sighting =
        some ⟨key, run.now, (retained window run.now recent).any (·.1 = key)⟩ ∧
      (processAt window run event data recent).data.duplicateDetected =
        (data.duplicateDetected || (retained window run.now recent).any (·.1 = key)) ∧
      (processAt window run event data recent).recent =
        remember run.now key (retained window run.now recent) := by
  unfold processAt
  split
  · exact .inl ⟨rfl, rfl, .refl _⟩
  split
  · exact .inl ⟨rfl, rfl, .refl _⟩
  split
  · exact .inl ⟨rfl, rfl, .refl _⟩
  split
  · exact .inl ⟨rfl, rfl, .refl _⟩
  split
  · exact .inl ⟨rfl, rfl, retained_subset ..⟩
  · exact .inr ⟨_, rfl, rfl, rfl⟩

/-- A run keeps the memory justified by the lookups. -/
theorem Remembers.processAt (h : Remembers sightings recent) :
    Remembers (sightings ++ (processAt window run event data recent).sighting.toList)
      (processAt window run event data recent).recent := by
  rcases processAt_cases with ⟨hsighting, -, hrecent⟩ | ⟨key, hsighting, -, hrecent⟩
  · rw [hsighting]
    exact h.mono hrecent (subset_append_left ..)
  have hretained : Remembers sightings (retained window run.now recent) :=
    h.mono (retained_subset ..) (.refl _)
  rw [hsighting, hrecent]
  exact hretained.remember run.now key

/-- An event is flagged by a lookup of a key that has an entry of the current
window. -/
theorem exists_of_flagged (hdata : data.duplicateDetected = false)
    (h : (processAt window run event data recent).data.duplicateDetected = true) :
    ∃ key, (processAt window run event data recent).sighting = some ⟨key, run.now, true⟩ ∧
      ∃ entry ∈ recent, entry.1 = key ∧ run.now - entry.2.firstSeen < window := by
  rcases processAt_cases with ⟨-, hsame, -⟩ | ⟨key, hsighting, hflag, -⟩
  · rw [hsame, hdata] at h
    cases h
  rw [hflag, hdata, Bool.false_or] at h
  rw [h] at hsighting
  exact ⟨key, hsighting, exists_of_known h⟩

end

end CrashMonitor.Pipeline
