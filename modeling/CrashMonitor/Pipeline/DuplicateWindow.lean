import CrashMonitor.Pipeline.DuplicateDetector
import CrashMonitor.Pipeline.Gate

/-!
# The window of the duplicate detector

Events one after another, without cancellation: the memory of the detector is
compared with the history of its decisions. An entry stands for the last
unflagged event of its key, and the memory has one for every unflagged event of
the current window.
-/

namespace CrashMonitor.Pipeline

open Capture List

variable {E : Type} {window now : Nat} {sightings : List Sighting} {recent : Recent}
  {key : DuplicateKey}

/-! ## Histories -/

/-- An event as it comes to the detector, not flagged yet. -/
structure Arrival (E : Type) where
  event : CrashEvent
  data : CollectedData E
  now : Nat
  fresh : data.duplicateDetected = false

/-- `process_at` without cancellation. -/
def Arrival.detect (window : Nat) (recent : Recent) (arrival : Arrival E) : Detection E :=
  processAt window ⟨arrival.now, fun _ => false, .ok (), false⟩ arrival.event arrival.data recent

/-- The decisions on the events with a fingerprint, and the memory. -/
def detectAll (window : Nat) (arrivals : List (Arrival E)) : List Sighting × Recent :=
  arrivals.foldl (fun state arrival =>
    let detection := arrival.detect window state.2
    (state.1 ++ detection.sighting.toList, detection.recent)) ([], [])

/-- The time of the last unflagged event with the key. -/
structure Latest (sightings : List Sighting) (key : DuplicateKey) (time : Nat) : Prop where
  seen : ⟨key, time, false⟩ ∈ sightings
  last : ∀ s ∈ sightings, s.key = key → s.known = false → s.time ≤ time

/-- The memory is that of the history up to now. -/
structure Watches (window now : Nat) (sightings : List Sighting) (recent : Recent) : Prop where
  latest : ∀ entry ∈ recent, Latest sightings entry.1 entry.2.firstSeen
  complete : ∀ s ∈ sightings, s.known = false → now - s.time < window →
    ∃ entry ∈ recent, entry.1 = s.key
  past : ∀ s ∈ sightings, s.time ≤ now

/-! ## One event -/

theorem mem_retained {entry} :
    entry ∈ retained window now recent ↔ entry ∈ recent ∧ now - entry.2.firstSeen < window := by
  simp [retained]

theorem exists_mem_remember (k : DuplicateKey) :
    (∃ entry ∈ remember now key recent, entry.1 = k) ↔ k = key ∨ ∃ entry ∈ recent, entry.1 = k := by
  unfold remember
  split
  next hknown =>
    have hkeys : ∀ entry : DuplicateKey × DuplicateEntry, (if entry.1 = key then
        (entry.1, { entry.2 with
          lastObserved := now
          occurrences := min (entry.2.occurrences + 1) MachineInt.u64Max })
        else entry).1 = entry.1 := by
      intro entry
      split <;> rfl
    simp only [mem_map, exists_exists_and_eq_and, hkeys]
    refine (or_iff_right_of_imp ?_).symm
    rintro rfl
    simpa using hknown
  · simp [eq_comm]

namespace Watches

theorem mono {later} (h : Watches window now sightings recent) (hle : now ≤ later) :
    Watches window later sightings recent where
  latest := h.latest
  complete s hs hunflagged hage := h.complete s hs hunflagged (by omega)
  past s hs := (h.past s hs).trans hle

variable (h : Watches window now sightings recent)

include h

/-- A key is known exactly if its last unflagged event is in the window. -/
theorem known_iff : (retained window now recent).any (·.1 = key) = true ↔
    ∃ time, Latest sightings key time ∧ now - time < window := by
  simp only [any_eq_true, mem_retained, decide_eq_true_eq]
  constructor
  · rintro ⟨entry, ⟨hentry, hage⟩, rfl⟩
    exact ⟨_, h.latest entry hentry, hage⟩
  rintro ⟨time, hlatest, hage⟩
  obtain ⟨entry, hentry, hkey⟩ := h.complete _ hlatest.seen rfl hage
  have htime : time ≤ _ := (h.latest entry hentry).last _ hlatest.seen hkey.symm rfl
  exact ⟨entry, ⟨hentry, by omega⟩, hkey⟩

theorem remember (key : DuplicateKey) : Watches window now
      (sightings ++ [⟨key, now, (retained window now recent).any (·.1 = key)⟩])
      (remember now key (retained window now recent)) := by
  have hpast : ∀ s ∈ sightings ++ [⟨key, now, (retained window now recent).any (·.1 = key)⟩],
      s.time ≤ now := by
    simpa [or_imp, forall_and] using h.past
  refine ⟨?_, ?_, hpast⟩
  · intro entry hentry
    rcases mem_remember hentry with ⟨old, hold, hkey, hfirst⟩ | ⟨hunknown, rfl⟩
    · obtain ⟨hseen, hlast⟩ := h.latest old (mem_retained.mp hold).1
      rw [← hkey, ← hfirst]
      refine ⟨mem_append_left _ hseen, fun s hs hskey hunflagged => ?_⟩
      rcases mem_append.mp hs with hs | hs
      · exact hlast s hs hskey hunflagged
      -- an event with a key of the memory is flagged
      rw [mem_singleton.mp hs] at hskey hunflagged
      exact absurd (decide_eq_true hskey.symm) (any_eq_false.mp hunflagged old hold)
    · exact ⟨by simp [hunknown], fun s hs _ _ => hpast s hs⟩
  · intro s hs hunflagged hage
    rw [exists_mem_remember]
    rcases mem_append.mp hs with hs | hs
    · right
      obtain ⟨entry, hentry, hkey⟩ := h.complete s hs hunflagged hage
      have htime := (h.latest entry hentry).last s hs hkey.symm hunflagged
      exact ⟨entry, mem_retained.mpr ⟨hentry, by omega⟩, hkey⟩
    · rw [mem_singleton.mp hs]
      exact .inl rfl

/-- The memory has the keys of the unflagged events in the window. -/
theorem exists_iff (hwindow : 0 < window) (key k : DuplicateKey) :
    (∃ entry ∈ Pipeline.remember now key (retained window now recent), entry.1 = k) ↔
      ∃ s ∈ sightings ++ [⟨key, now, (retained window now recent).any (·.1 = key)⟩],
        s.key = k ∧ s.known = false ∧ now - s.time < window := by
  constructor
  · rintro ⟨entry, hentry, rfl⟩
    refine ⟨_, ((h.remember key).latest entry hentry).seen, rfl, rfl, ?_⟩
    rcases mem_remember hentry with ⟨old, hold, -, hfirst⟩ | ⟨-, rfl⟩
    · rw [← hfirst]
      exact (mem_retained.mp hold).2
    · simpa using hwindow
  · rintro ⟨s, hs, rfl, hunflagged, hage⟩
    exact (h.remember key).complete s hs hunflagged hage

end Watches

/-! ## Sequences of events -/

/-- What the detector does with an event after a history. -/
structure Lawful (window : Nat) (past : List Sighting × Recent) (arrival : Arrival E)
    (detection : Detection E) : Prop where
  plain : arrival.data.fingerprint = none → detection.data.duplicateDetected = false ∧
    detection.sighting = none ∧ detection.recent = past.2
  decided : ∀ fingerprint, arrival.data.fingerprint = some fingerprint →
    detection.sighting = some ⟨duplicateKey arrival.event arrival.data fingerprint, arrival.now,
      detection.data.duplicateDetected⟩
  flagged : ∀ s ∈ detection.sighting,
    (s.known = true ↔ ∃ time, Latest past.1 s.key time ∧ arrival.now - time < window)
  holds : ∀ s ∈ detection.sighting, ∀ k, (∃ entry ∈ detection.recent, entry.1 = k) ↔
    ∃ t ∈ past.1 ++ [s], t.key = k ∧ t.known = false ∧ arrival.now - t.time < window

theorem detect_none {arrival : Arrival E} (h : arrival.data.fingerprint = none) :
    arrival.detect window recent = ⟨.ok (), arrival.data, recent, none⟩ := by
  simp [Arrival.detect, processAt, h]

theorem detect_some {arrival : Arrival E} {fingerprint}
    (h : arrival.data.fingerprint = some fingerprint) :
    let key := duplicateKey arrival.event arrival.data fingerprint
    let known := (retained window arrival.now recent).any (·.1 = key)
    arrival.detect window recent = ⟨.ok (), { arrival.data with duplicateDetected := known },
        remember arrival.now key (retained window arrival.now recent),
        some ⟨key, arrival.now, known⟩⟩ := by
  simp [Arrival.detect, processAt, h, arrival.fresh]

theorem detectAll_watches (window : Nat) (arrivals : List (Arrival E)) (now : Nat)
    (hordered : (arrivals.map (·.now)).Pairwise (· ≤ ·)) (hnow : ∀ a ∈ arrivals, a.now ≤ now) :
    Watches window now (detectAll window arrivals).1 (detectAll window arrivals).2 := by
  induction arrivals using reverseRecOn generalizing now with
  | nil => exact ⟨by simp [detectAll], by simp [detectAll], by simp [detectAll]⟩
  | append_singleton before arrival ih =>
    rw [map_append, pairwise_append] at hordered
    have hbefore := ih arrival.now hordered.1 fun a ha =>
      hordered.2.2 _ (mem_map_of_mem ha) _ (by simp)
    have hlast : arrival.now ≤ now := hnow arrival (by simp)
    have hstep : detectAll window (before ++ [arrival]) =
        ((detectAll window before).1 ++
          (arrival.detect window (detectAll window before).2).sighting.toList,
          (arrival.detect window (detectAll window before).2).recent) := by
      simp [detectAll]
    rw [hstep]
    cases hf : arrival.data.fingerprint with
    | none =>
      rw [detect_none hf]
      simpa using hbefore.mono hlast
    | some fingerprint =>
      rw [detect_some hf]
      exact (hbefore.remember _).mono hlast

/-- **The window law.** After any sequence of events at nondecreasing times. -/
theorem duplicate_window_law (hwindow : 0 < window) (before : List (Arrival E))
    (arrival : Arrival E) (hordered : ((before ++ [arrival]).map (·.now)).Pairwise (· ≤ ·)) :
    Lawful window (detectAll window before) arrival
      (arrival.detect window (detectAll window before).2) := by
  rw [map_append, pairwise_append] at hordered
  have hwatches := detectAll_watches window before arrival.now hordered.1 fun a ha =>
    hordered.2.2 _ (mem_map_of_mem ha) _ (by simp)
  cases hf : arrival.data.fingerprint with
  | none =>
    rw [detect_none hf]
    exact ⟨by simp [arrival.fresh], by simp [hf], by simp, by simp⟩
  | some fingerprint =>
    rw [detect_some hf]
    refine ⟨by simp [hf], ?_, ?_, ?_⟩
    · intro other hother
      cases hf.symm.trans hother
      rfl
    · intro s hs
      cases hs
      exact hwatches.known_iff
    · intro s hs
      cases hs
      exact hwatches.exists_iff hwindow _

/-- A crash with the fingerprint "f". -/
def crashAt (now : Nat) : Arrival Unit :=
  ⟨OpenGate.event, { CollectedData.empty with fingerprint := some "f" }, now, rfl⟩

theorem duplicate_window_law_second : Lawful 60 (detectAll 60 [crashAt 0]) (crashAt 59)
      ((crashAt 59).detect 60 (detectAll 60 [crashAt 0]).2) :=
  duplicate_window_law (by decide) [crashAt 0] (crashAt 59) (by decide)

end CrashMonitor.Pipeline
