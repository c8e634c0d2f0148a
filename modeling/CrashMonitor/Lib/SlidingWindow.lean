import Mathlib.Algebra.Group.Nat.Defs
import Mathlib.Data.List.Basic
import Mathlib.Data.List.Induction
import Mathlib.Data.List.TakeWhile
import Mathlib.Order.Lattice

/-!
# Admission by a sliding window

A limiter answers each event with yes or no and may remember what it likes.
The policy is about its answers alone: an event is admitted exactly if fewer
than `limit` events of its kind were admitted within the last `span`. The
usual implementation keeps one queue of admission times for each kind and
drops times from the front; `Implements.policy` says when that is right.
-/

namespace CrashMonitor.Lib.SlidingWindow

open List

/-! ## Queues of times -/

/-- The time `t` has left the window that ends now. -/
def expired (span now t : Nat) : Bool := t + span ≤ now

/-- The window `(now - span, now]`. -/
def within (span now t : Nat) : Bool := now < t + span ∧ t ≤ now

/-- A queue stands for the admission times so far: what it has lost is out of
the window at any time from `latest` on. -/
structure Tracks (span : Nat) (times queue : List Nat) (latest : Nat) : Prop where
  lost : ∃ lost, times = lost ++ queue ∧ ∀ t ∈ lost, t + span ≤ latest
  sorted : times.Pairwise (· ≤ ·)
  bounded : ∀ t ∈ times, t ≤ latest

variable {span : Nat} {times queue : List Nat} {latest now : Nat}

theorem Tracks.empty (latest : Nat) : Tracks span [] [] latest :=
  ⟨⟨[], rfl, fun _ h => absurd h not_mem_nil⟩, .nil, fun _ h => absurd h not_mem_nil⟩

theorem Tracks.queue_le (h : Tracks span times queue latest) : ∀ t ∈ queue, t ≤ latest := by
  obtain ⟨lost, htimes, -⟩ := h.lost
  intro t ht
  exact h.bounded t (by rw [htimes]; exact mem_append_right _ ht)

theorem Tracks.later (h : Tracks span times queue latest) (hle : latest ≤ now) :
    Tracks span times queue now := by
  obtain ⟨lost, htimes, hlost⟩ := h.lost
  exact ⟨⟨lost, htimes, fun t ht => (hlost t ht).trans hle⟩, h.sorted,
    fun t ht => (h.bounded t ht).trans hle⟩

/-- In a sorted queue the expired times are the front. -/
theorem dropWhile_expired (h : queue.Pairwise (· ≤ ·)) :
    queue.dropWhile (expired span now) = queue.filter fun t => !expired span now t := by
  induction queue with
  | nil => rfl
  | cons t rest ih =>
    obtain ⟨hle, hrest⟩ := pairwise_cons.mp h
    by_cases ht : expired span now t = true
    · rw [dropWhile_cons_of_pos ht, filter_cons_of_neg (by simp [ht]), ih hrest]
    -- everything behind a time in the window is in the window
    have hall : ∀ u ∈ t :: rest, (!expired span now u) = true := by
      intro u hu
      have htu : t ≤ u := forall_mem_cons.mpr ⟨Nat.le_refl t, hle⟩ u hu
      simp only [expired, decide_eq_true_eq, Bool.not_eq_true', decide_eq_false_iff_not]
        at ht ⊢
      omega
    rw [dropWhile_cons_of_neg ht, filter_eq_self.mpr hall]

/-- Evicting the front leaves as many times as the window holds. -/
theorem Tracks.length_dropWhile (h : Tracks span times queue latest) (hle : latest ≤ now) :
    (queue.dropWhile (expired span now)).length = times.countP (within span now) := by
  obtain ⟨lost, htimes, hlost⟩ := h.lost
  have hsorted : queue.Pairwise (· ≤ ·) := by
    have hpair := h.sorted
    rw [htimes] at hpair
    exact (pairwise_append.mp hpair).2.1
  have hzero : lost.countP (within span now) = 0 := by
    rw [countP_eq_zero]
    intro t ht
    have := hlost t ht
    simp only [within, decide_eq_true_eq]
    omega
  rw [dropWhile_expired hsorted, ← countP_eq_length_filter, htimes,
    countP_append, hzero, Nat.zero_add]
  apply countP_congr
  intro t ht
  have hbound : t ≤ latest := h.queue_le t ht
  simp only [expired, within, Bool.not_eq_true', decide_eq_false_iff_not, decide_eq_true_eq]
  omega

theorem Tracks.evict (h : Tracks span times queue latest) (hle : latest ≤ now) :
    Tracks span times (queue.dropWhile (expired span now)) now := by
  obtain ⟨lost, htimes, hlost⟩ := h.lost
  refine ⟨⟨lost ++ queue.takeWhile (expired span now), ?_, ?_⟩, h.sorted,
    fun t ht => (h.bounded t ht).trans hle⟩
  · rw [append_assoc, takeWhile_append_dropWhile]
    exact htimes
  intro t ht
  rcases mem_append.mp ht with ht | ht
  · exact (hlost t ht).trans hle
  · have := mem_takeWhile_imp ht
    simpa [expired] using this

theorem Tracks.push (h : Tracks span times queue now) :
    Tracks span (times ++ [now]) (queue ++ [now]) now := by
  obtain ⟨lost, htimes, hlost⟩ := h.lost
  refine ⟨⟨lost, ?_, hlost⟩, ?_, ?_⟩
  · rw [htimes, append_assoc]
  · rw [pairwise_append]
    refine ⟨h.sorted, pairwise_singleton _ _, ?_⟩
    intro t ht u hu
    rw [mem_singleton.mp hu]
    exact h.bounded t ht
  · exact forall_mem_append.mpr ⟨h.bounded, forall_mem_singleton.mpr (Nat.le_refl _)⟩

/-! ## Limiters and their answers -/

section Answers

variable {S E : Type} (step : S → E → Bool × S)

section

variable (s : S) (past events : List E)

/-- The state after a sequence of events. -/
def stateAfter : S := events.foldl (fun s e => (step s e).2) s

/-- The events answered with yes. -/
def admittedBy (s : S) : List E → List E
  | [] => []
  | e :: rest =>
    if (step s e).1 then e :: admittedBy (step s e).2 rest
    else admittedBy (step s e).2 rest

/-- The answer to an event after a sequence of others. -/
def admits (e : E) : Bool := (step (stateAfter step s past) e).1

theorem stateAfter_snoc (e : E) :
    stateAfter step s (past ++ [e]) = (step (stateAfter step s past) e).2 := by
  simp [stateAfter]

theorem admittedBy_snoc (e : E) :
    admittedBy step s (past ++ [e]) =
      admittedBy step s past ++ if admits step s past e then [e] else [] := by
  induction past generalizing s with
  | nil => rfl
  | cons a rest ih =>
    have htail : admits step s (a :: rest) e = admits step (step s a).2 rest e := rfl
    rw [cons_append, htail]
    by_cases ha : (step s a).1 = true
    · simp only [admittedBy, if_pos ha, ih, cons_append]
    · simp only [admittedBy, if_neg ha, ih]

theorem admittedBy_sublist :
    (admittedBy step s events).Sublist events := by
  induction events generalizing s with
  | nil => exact .refl _
  | cons a rest ih =>
    rw [admittedBy]
    split
    · exact (ih _).cons_cons a
    · exact (ih _).cons a

end

end Answers

/-! ## The policy -/

section Policy

variable {S E K : Type} [DecidableEq K] {step : S → E → Bool × S} {s : S}
  {key : E → K} {time : E → Nat} {limit : Nat} {valid : E → Prop}

/-- Events in the order of their times. -/
def InOrder (time : E → Nat) (events : List E) : Prop := events.Pairwise fun a b => time a ≤ time b

/-- Events of one kind in the window that ends at `now`. -/
def load (key : E → K) (time : E → Nat) (span : Nat) (k : K) (now : Nat) (events : List E) : Nat :=
  events.countP fun a => key a = k ∧ within span now (time a) = true

/-- A limiter admits an event exactly if the window has room for its kind. -/
def Policy (step : S → E → Bool × S) (s : S) (key : E → K) (time : E → Nat)
    (span limit : Nat) (valid : E → Prop) : Prop :=
  ∀ past e, InOrder time (past ++ [e]) → (∀ a ∈ past ++ [e], valid a) →
    (admits step s past e = true ↔
      load key time span (key e) (time e) (admittedBy step s past) < limit)

theorem InOrder.init {past e} (h : InOrder time (past ++ [e])) :
    InOrder time past ∧ ∀ a ∈ past, time a ≤ time e := by
  obtain ⟨hpast, -, hle⟩ := pairwise_append.mp h
  exact ⟨hpast, fun a ha => hle a ha e (mem_singleton.mpr rfl)⟩

section

variable (h : Policy step s key time span limit valid) {events : List E}
  (horder : InOrder time events) (hvalid : ∀ a ∈ events, valid a) (k : K)
include h horder hvalid

/-- No window ever holds more than the limit. -/
theorem Policy.load_le (now : Nat) :
    load key time span k now (admittedBy step s events) ≤ limit := by
  induction events using List.reverseRecOn with
  | nil => exact Nat.zero_le _
  | append_singleton past e ih =>
    obtain ⟨hpast, hle⟩ := horder.init
    have hold := ih hpast fun a ha => hvalid a (mem_append_left _ ha)
    rw [admittedBy_snoc]
    by_cases hyes : admits step s past e = true
    · rw [if_pos hyes, load, countP_append]
      by_cases hin : key e = k ∧ within span now (time e) = true
      · -- what the window holds besides `e` was in the window when `e` came
        have hroom := (h past e horder hvalid).mp hyes
        have hsub : load key time span k now (admittedBy step s past) ≤
            load key time span (key e) (time e) (admittedBy step s past) := by
          apply countP_mono_left
          intro a ha hka
          have hae := hle a ((admittedBy_sublist ..).subset ha)
          have hnow := hin.2
          simp only [within, decide_eq_true_eq] at hka hnow ⊢
          exact ⟨hka.1.trans hin.1.symm, by omega, hae⟩
        rw [countP_singleton, if_pos (by simpa using hin)]
        unfold load at hsub hroom
        omega
      · rw [countP_singleton, if_neg (by simpa using hin)]
        exact hold
    · rw [if_neg hyes, append_nil]
      exact hold

/-- The answers to events of one kind do not depend on the others. -/
theorem Policy.admittedBy_filter :
    admittedBy step s (events.filter fun a => key a = k) =
      (admittedBy step s events).filter fun a => key a = k := by
  induction events using List.reverseRecOn with
  | nil => rfl
  | append_singleton past e ih =>
    obtain ⟨hpast, -⟩ := horder.init
    have hold := ih hpast fun a ha => hvalid a (mem_append_left _ ha)
    rw [filter_append, admittedBy_snoc, filter_append, ← hold]
    by_cases hk : key e = k
    · have hone : ([e].filter fun a => key a = k) = [e] := by simp [hk]
      rw [hone, admittedBy_snoc]
      have hsub : (past.filter (fun a => key a = k) ++ [e]).Sublist (past ++ [e]) :=
        .append filter_sublist (.refl _)
      have hiff := h (past.filter fun a => key a = k) e (horder.sublist hsub)
        fun a ha => hvalid a (hsub.subset ha)
      have hload : load key time span (key e) (time e)
            (admittedBy step s (past.filter fun a => key a = k)) =
          load key time span (key e) (time e) (admittedBy step s past) := by
        rw [hold, load, load, countP_filter]
        apply countP_congr
        intro a _
        simp only [hk, decide_eq_true_eq, Bool.and_eq_true, and_iff_left_iff_imp]
        exact And.left
      rw [hload, ← h past e horder hvalid] at hiff
      rw [Bool.eq_iff_iff.mpr hiff]
      by_cases hyes : admits step s past e = true
      · rw [if_pos hyes, hone]
      · rw [if_neg hyes, filter_nil]
    · have hnone : ([e].filter fun a => key a = k) = [] := by simp [hk]
      rw [hnone, append_nil]
      by_cases hyes : admits step s past e = true
      · rw [if_pos hyes, hnone, append_nil]
      · rw [if_neg hyes, filter_nil, append_nil]

end

/-! ## One queue for each kind -/

/-- A limiter that keeps a queue of admission times for each kind. On a refusal
it may or may not keep the eviction. Nothing is said of times from the future. -/
structure Implements (step : S → E → Bool × S) (key : E → K) (time : E → Nat)
    (span limit : Nat) (valid : E → Prop) (Ok : S → Prop) (queue : S → K → List Nat) : Prop where
  decides : ∀ s e, Ok s → valid e → (∀ t ∈ queue s (key e), t ≤ time e) →
    (step s e).1 = decide (((queue s (key e)).dropWhile (expired span (time e))).length < limit)
  admitted : ∀ s e, Ok s → valid e → (∀ t ∈ queue s (key e), t ≤ time e) → (step s e).1 = true →
    queue (step s e).2 (key e) = (queue s (key e)).dropWhile (expired span (time e)) ++ [time e]
  refused : ∀ s e, Ok s → valid e → (∀ t ∈ queue s (key e), t ≤ time e) → (step s e).1 = false →
    queue (step s e).2 (key e) = (queue s (key e)).dropWhile (expired span (time e)) ∨
      queue (step s e).2 (key e) = queue s (key e)
  others : ∀ s e k, Ok s → valid e → k ≠ key e → queue (step s e).2 k = queue s k
  keeps : ∀ s e, Ok s → valid e → Ok (step s e).2

/-- The admission times of one kind. -/
def timesOf (key : E → K) (time : E → Nat) (k : K) (events : List E) : List Nat :=
  (events.filter fun a => key a = k).map time

theorem countP_timesOf (k : K) (now : Nat) (events : List E) :
    (timesOf key time k events).countP (within span now) = load key time span k now events := by
  rw [timesOf, countP_map, countP_filter, load]
  apply countP_congr
  intro a _
  simp [and_comm]

variable {Ok : S → Prop} {queue : S → K → List Nat}

section

variable (h : Implements step key time span limit valid Ok queue) (hs : Ok s)
  (hempty : ∀ k, queue s k = [])
include h hs hempty

/-- Every queue tracks the admissions of its kind, after every run. -/
theorem Implements.tracks {events latest}
    (horder : InOrder time events) (hvalid : ∀ a ∈ events, valid a)
    (hlatest : ∀ a ∈ events, time a ≤ latest) : Ok (stateAfter step s events) ∧ ∀ k, Tracks span
      (timesOf key time k (admittedBy step s events))
      (queue (stateAfter step s events) k) latest := by
  induction events using List.reverseRecOn generalizing latest with
  | nil =>
    refine ⟨hs, fun k => ?_⟩
    rw [show stateAfter step s [] = s from rfl, hempty k]
    exact .empty latest
  | append_singleton past e ih =>
    obtain ⟨hpast, hle⟩ := horder.init
    have he : valid e := hvalid e (by simp)
    have hlast : time e ≤ latest := hlatest e (by simp)
    obtain ⟨hok, htracks⟩ := ih hpast (fun a ha => hvalid a (by simp [ha])) hle
    rw [stateAfter_snoc, admittedBy_snoc]
    refine ⟨h.keeps _ e hok he, fun k => ?_⟩
    apply Tracks.later _ hlast
    by_cases hk : k = key e
    · subst hk
      have hevicted := (htracks (key e)).evict (Nat.le_refl (time e))
      have hqueue := (htracks (key e)).queue_le
      cases hyes : admits step s past e with
      | true =>
        have hone : ([e].filter fun a => key a = key e) = [e] := by simp
        rw [h.admitted _ e hok he hqueue hyes, if_pos rfl, timesOf, filter_append, hone, map_append]
        exact hevicted.push
      | false =>
        rw [if_neg (by simp), append_nil]
        rcases h.refused _ e hok he hqueue hyes with hq | hq
        · rw [hq]
          exact hevicted
        · rw [hq]
          exact htracks (key e)
    · rw [h.others _ e k hok he hk]
      have hsame : timesOf key time k (admittedBy step s past ++
          if admits step s past e = true then [e] else []) =
          timesOf key time k (admittedBy step s past) := by
        have hnone : ([e].filter fun a => key a = k) = [] := by simpa using fun heq => hk heq.symm
        rw [timesOf, filter_append]
        split
        · rw [hnone, append_nil, timesOf]
        · rw [filter_nil, append_nil, timesOf]
      rw [hsame]
      exact htracks k

/-- **Queues with front eviction implement the policy.** -/
theorem Implements.policy : Policy step s key time span limit valid := by
  intro past e horder hvalid
  obtain ⟨hpast, hle⟩ := horder.init
  obtain ⟨hok, htracks⟩ := h.tracks hs hempty hpast
    (fun a ha => hvalid a (mem_append_left _ ha)) hle
  rw [admits, h.decides _ e hok (hvalid e (by simp)) (htracks (key e)).queue_le,
    decide_eq_true_iff, (htracks (key e)).length_dropWhile (Nat.le_refl _), countP_timesOf]

end

end Policy

end CrashMonitor.Lib.SlidingWindow
