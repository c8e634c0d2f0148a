import CrashMonitor.Report.Threads
import Mathlib.Data.Finset.Card

/-!
# Which addresses are symbolicated

`collect_symbolication_addresses` (`preprocessors/symbolicate.rs`) walks the
backtraces, those of the crashed threads first, under three limits: of threads,
of frames and of different addresses.
-/

namespace CrashMonitor.Symbols

open Lib Report List

section

variable (threads : List RawThreadData) (maxThreads maxFrames maxUniqueAddresses : Nat)

/-- The variables of the walk. -/
structure Collecting where
  addresses : SortedMap Nat Unit
  framesSeen : Nat

/-- One frame; an error leaves all loops. -/
def collectFrame (state : Collecting) (address : Nat) : Except Collecting Collecting :=
  if maxFrames ≤ state.framesSeen then .error state
  else
    let state := { state with framesSeen := state.framesSeen + 1 }
    if address = 0 then .ok state
    else
      let state := { state with addresses := state.addresses.insert address () }
      if maxUniqueAddresses ≤ state.addresses.keys.length then .error state else .ok state

/-- What the loops leave behind. -/
def leftBehind : Except Collecting Collecting → Collecting
  | .ok state => state
  | .error state => state

def prioritizedThreads : List RawThreadData :=
  threads.filter (·.crashed) ++ threads.filter (!·.crashed)

/-- `collect_symbolication_addresses`, without cancellation. -/
def collectSymbolicationAddresses : List Nat :=
  if maxUniqueAddresses = 0 then []
  else
    let walk := ((prioritizedThreads threads).take maxThreads).foldlM (fun state thread =>
      thread.backtrace.foldlM (collectFrame maxFrames maxUniqueAddresses) state) ⟨.empty, 0⟩
    (leftBehind walk).addresses.keys

/-! ## The walk -/

def framesOf (threads : List RawThreadData) : List Nat := threads.flatMap (·.backtrace)

/-- The frames within the limits of threads and frames. -/
def walkedFrames : List Nat :=
  (framesOf ((prioritizedThreads threads).take maxThreads)).take maxFrames

/-- The different addresses of some frames. -/
def addressesMet (frames : List Nat) : Finset Nat := frames.toFinset.erase 0

/-- The walk ends at frame `k`: it is the last, or the first with so many
addresses. -/
structure EndsAt (frames : List Nat) (k : Nat) : Prop where
  before : ∀ j < k, (addressesMet (frames.take j)).card < maxUniqueAddresses
  last : k = frames.length ∨ (addressesMet (frames.take k)).card = maxUniqueAddresses

end

variable {threads : List RawThreadData} {maxThreads maxFrames maxUniqueAddresses : Nat}
  {state : Collecting} {done : List Nat}

theorem foldlM_framesOf (step : Collecting → Nat → Except Collecting Collecting) :
    threads.foldlM (fun state thread => thread.backtrace.foldlM step state) state =
      (framesOf threads).foldlM step state := by
  induction threads generalizing state with
  | nil => rfl
  | cons thread rest ih => simp [framesOf, foldlM_append, ih]

def HasMet (done : List Nat) (state : Collecting) : Prop :=
  ∀ a, a ∈ state.addresses.keys ↔ a ∈ addressesMet done

theorem HasMet.length_keys (h : HasMet done state) :
    state.addresses.keys.length = (addressesMet done).card := by
  rw [← toFinset_card_of_nodup state.addresses.keys_nodup]
  congr 1
  ext a
  rw [mem_toFinset, h]

/-- A frame adds its address, unless it is zero. -/
theorem addressesMet_concat (address : Nat) : addressesMet (done ++ [address]) =
    if address = 0 then addressesMet done else insert address (addressesMet done) := by
  ext a
  by_cases hzero : address = 0
  · simp [addressesMet, hzero]
  · simp [addressesMet, hzero]
    grind

/-- The walk goes on after these frames. -/
structure GoesOn (maxFrames maxUniqueAddresses : Nat) (done : List Nat) (state : Collecting) :
    Prop where
  met : HasMet done state
  seen : state.framesSeen = done.length
  room : done.length ≤ maxFrames
  before : ∀ j ≤ done.length, (addressesMet (done.take j)).card < maxUniqueAddresses

theorem GoesOn.frame (h : GoesOn maxFrames maxUniqueAddresses done state)
    (hroom : done.length < maxFrames) (address : Nat) :
    match collectFrame maxFrames maxUniqueAddresses state address with
    | .ok next => GoesOn maxFrames maxUniqueAddresses (done ++ [address]) next
    | .error final => HasMet (done ++ [address]) final ∧
        (addressesMet (done ++ [address])).card = maxUniqueAddresses := by
  have hnow : (addressesMet done).card < maxUniqueAddresses := by
    simpa using h.before done.length (Nat.le_refl _)
  have hnext : ∀ next, HasMet (done ++ [address]) next →
      next.framesSeen = state.framesSeen + 1 →
      (addressesMet (done ++ [address])).card < maxUniqueAddresses →
      GoesOn maxFrames maxUniqueAddresses (done ++ [address]) next := by
    intro next hmet hseen hcard
    refine ⟨hmet, by simp [hseen, h.seen], by simpa using Nat.succ_le_of_lt hroom,
      fun j hj => ?_⟩
    by_cases hlast : j ≤ done.length
    · rw [take_append_of_le_length hlast]
      exact h.before j hlast
    · rwa [take_of_length_le (by simp; omega)]
  rw [collectFrame, if_neg (by rw [h.seen]; omega)]
  by_cases hzero : address = 0
  · rw [if_pos hzero]
    refine hnext _ (fun a => ?_) rfl ?_
    · rw [addressesMet_concat, if_pos hzero]
      exact h.met a
    · rwa [addressesMet_concat, if_pos hzero]
  · rw [if_neg hzero]
    have hmet : HasMet (done ++ [address])
        ⟨state.addresses.insert address (), state.framesSeen + 1⟩ := by
      intro a
      rw [addressesMet_concat, if_neg hzero, Finset.mem_insert, ← h.met a]
      exact SortedMap.mem_keys_insert ..
    have hlength := hmet.length_keys
    by_cases hfull : maxUniqueAddresses ≤ (state.addresses.insert address ()).keys.length
    · rw [if_pos hfull]
      refine ⟨hmet, ?_⟩
      have hle := Finset.card_insert_le address (addressesMet done)
      rw [addressesMet_concat, if_neg hzero] at hlength ⊢
      dsimp only at hlength
      omega
    · rw [if_neg hfull]
      exact hnext _ hmet rfl (by dsimp only at hlength; omega)

theorem GoesOn.walk (h : GoesOn maxFrames maxUniqueAddresses done state) (rest : List Nat) :
    ∃ k, EndsAt maxUniqueAddresses ((done ++ rest).take maxFrames) k ∧
      HasMet (((done ++ rest).take maxFrames).take k)
        (leftBehind (rest.foldlM (collectFrame maxFrames maxUniqueAddresses) state)) := by
  induction rest generalizing done state with
  | nil =>
    rw [append_nil, take_of_length_le h.room]
    refine ⟨done.length, ⟨fun j hj => h.before j (Nat.le_of_lt hj), .inl rfl⟩, ?_⟩
    rw [take_length]
    exact h.met
  | cons address rest ih =>
    rw [foldlM_cons]
    by_cases hroom : done.length < maxFrames
    · have hframe := h.frame hroom address
      rw [append_cons]
      cases hstep : collectFrame maxFrames maxUniqueAddresses state address with
      | ok next =>
        rw [hstep] at hframe
        exact ih hframe
      | error final =>
        rw [hstep] at hframe
        have htake : ∀ j ≤ done.length + 1, ((done ++ [address] ++ rest).take maxFrames).take j =
            (done ++ [address]).take j := by
          intro j hj
          rw [take_take, Nat.min_eq_left (by omega), take_append_of_le_length (by simp; omega)]
        refine ⟨done.length + 1, ⟨fun j hj => ?_, .inr ?_⟩, ?_⟩
        · rw [htake j (by omega), take_append_of_le_length (by omega)]
          exact h.before j (by omega)
        · rw [htake _ (Nat.le_refl _), take_of_length_le (by simp)]
          exact hframe.2
        · rw [htake _ (Nat.le_refl _), take_of_length_le (by simp)]
          exact hframe.1
    · -- no further frame is allowed
      have hfull : done.length = maxFrames := Nat.le_antisymm h.room (Nat.le_of_not_lt hroom)
      rw [collectFrame, if_pos (by rw [h.seen]; omega), take_left' hfull]
      refine ⟨done.length, ⟨fun j hj => h.before j (Nat.le_of_lt hj), .inl rfl⟩, ?_⟩
      rw [take_length]
      exact h.met

/-- Frames beyond those of the crashed threads come after all of them. -/
theorem crashed_met_first {k a b} (ha : a ∈ (walkedFrames threads maxThreads maxFrames).take k)
    (hother : a ∉ framesOf (threads.filter (·.crashed)))
    (hb : b ∈ framesOf (threads.filter (·.crashed))) :
    b ∈ (walkedFrames threads maxThreads maxFrames).take k := by
  unfold walkedFrames prioritizedThreads at ha ⊢
  rw [take_take] at ha ⊢
  generalize threads.filter (·.crashed) = crashed at ha hother hb ⊢
  generalize threads.filter (!·.crashed) = others at ha ⊢
  by_cases hthreads : maxThreads ≤ crashed.length
  · rw [take_append_of_le_length hthreads] at ha
    obtain ⟨thread, hmem, hframe⟩ := mem_flatMap.mp (mem_of_mem_take ha)
    exact absurd (mem_flatMap.mpr ⟨thread, mem_of_mem_take hmem, hframe⟩) hother
  rw [take_append, take_of_length_le (l := crashed) (by omega), framesOf, flatMap_append,
    take_append, mem_append] at ha ⊢
  rcases ha with ha | ha
  · exact absurd (mem_of_mem_take ha) hother
  left
  rw [take_of_length_le]
  · exact hb
  · have hpos := length_pos_of_mem ha
    rw [length_take] at hpos
    omega

/-- **The faulting thread first.** The addresses are, in order, those met up to
the frame at which the walk ends. One that only other threads have is taken
only with all those of the crashed threads. -/
theorem symbolication_addresses (threads : List RawThreadData)
    (maxThreads maxFrames maxUniqueAddresses : Nat) :
    let selected := collectSymbolicationAddresses threads maxThreads maxFrames maxUniqueAddresses
    let frames := walkedFrames threads maxThreads maxFrames
    let crashed := framesOf (threads.filter (·.crashed))
    (∃ k, EndsAt maxUniqueAddresses frames k ∧ selected.Pairwise (· < ·) ∧
      ∀ a, a ∈ selected ↔ a ∈ addressesMet (frames.take k)) ∧
    ∀ a ∈ selected, a ∉ crashed → ∀ b ∈ crashed, b ≠ 0 → b ∈ selected := by
  intro selected frames crashed
  have hwalk : ∃ k, EndsAt maxUniqueAddresses frames k ∧ selected.Pairwise (· < ·) ∧
      ∀ a, a ∈ selected ↔ a ∈ addressesMet (frames.take k) := by
    by_cases hnone : maxUniqueAddresses = 0
    · have hselected : selected = [] := if_pos hnone
      rw [hselected]
      exact ⟨0, ⟨by simp, .inr (by simp [addressesMet, hnone])⟩, .nil, by simp [addressesMet]⟩
    have hstart : GoesOn maxFrames maxUniqueAddresses [] ⟨.empty, 0⟩ :=
      ⟨by simp [HasMet, addressesMet, SortedMap.keys, SortedMap.empty], rfl, Nat.zero_le _,
        by simpa [addressesMet] using Nat.pos_of_ne_zero hnone⟩
    obtain ⟨k, hends, hmet⟩ := hstart.walk (framesOf ((prioritizedThreads threads).take maxThreads))
    have hselected : selected = _ := if_neg hnone
    rw [foldlM_framesOf] at hselected
    rw [hselected]
    exact ⟨k, hends, SortedMap.keys_sorted _, hmet⟩
  refine ⟨hwalk, ?_⟩
  obtain ⟨k, -, -, hmem⟩ := hwalk
  intro a ha hother b hb hzero
  rw [hmem, addressesMet, Finset.mem_erase, mem_toFinset] at ha ⊢
  exact ⟨hzero, crashed_met_first ha.2 hother hb⟩

end CrashMonitor.Symbols
