import Mathlib.Data.List.Basic

/-!
# Capped capture of a stream

`read_capped` (`pipeline/safety.rs`) reads the output of a subprocess until its
end, and keeps at most the first mebibyte. A request to stop is looked at before
each read and after a read that would block; then only so many reads follow.
-/

namespace CrashMonitor.Process

open List

def maxSubprocessStreamBytes : Nat := 1024 * 1024
def maxStopDrainReads : Nat := maxSubprocessStreamBytes / 8192
def stoppedBeforeEof : String := "output capture stopped before EOF"

structure StreamCapture where
  bytes : List UInt8
  truncated : Bool
  error : Option String

/-- What `read` returns; no byte means the end of the stream. -/
inductive StreamRead where
  | data (chunk : List UInt8)
  | interrupted
  | wouldBlock
  | failed (error : String)

def StreamRead.delivered : StreamRead → List UInt8
  | .data chunk => chunk
  | _ => []

/-- The variables of the loop. -/
structure Capturing where
  bytes : List UInt8
  truncated : Bool
  readsAfterStop : Nat

def Capturing.finish (state : Capturing) (error : Option String) : StreamCapture :=
  ⟨state.bytes, state.truncated, error⟩

/-- One round of the loop, with the flag before the read and after it: the next
state, or what is returned. -/
def captureRound (stopping stopped : Bool) (state : Capturing) :
    StreamRead → Capturing ⊕ StreamCapture
  | .data [] => .inr (state.finish none)
  | .data chunk =>
    let retained := min (maxSubprocessStreamBytes - state.bytes.length) chunk.length
    let state : Capturing := {
      bytes := state.bytes ++ chunk.take retained
      truncated := state.truncated || retained < chunk.length
      readsAfterStop := state.readsAfterStop + stopping.toNat }
    if maxStopDrainReads ≤ state.readsAfterStop then
      .inr (state.finish (some stoppedBeforeEof))
    else .inl state
  | .interrupted => .inl state
  | .wouldBlock => if stopped then .inr (state.finish (some stoppedBeforeEof)) else .inl state
  | .failed error => .inr (state.finish (some error))

section

variable (reads : Nat → StreamRead) (requested : Option Nat)

/-- Whether a load sees the request; round `n` loads the flag at `2 * n` and, if
it would block, at `2 * n + 1`. -/
def stopSeen (load : Nat) : Bool := requested.any (· ≤ load)

/-- `read_capped` after `n` rounds. -/
def readCapped : Nat → Capturing ⊕ StreamCapture
  | 0 => .inl ⟨[], false, 0⟩
  | n + 1 =>
    match readCapped n with
    | .inl state => captureRound (stopSeen requested (2 * n)) (stopSeen requested (2 * n + 1))
        state (reads n)
    | .inr capture => .inr capture

/-- Round `n` is the last, with this result. -/
def ReturnsIn (n : Nat) (capture : StreamCapture) : Prop :=
  readCapped reads requested n.succ = .inr capture ∧
    ∃ state, readCapped reads requested n = .inl state

/-- All bytes of the first `n` reads. -/
def deliveredBy (n : Nat) : List UInt8 := (range n).flatMap fun m => (reads m).delivered

/-- Among the first `n` reads, those from this load on that delivered bytes. -/
def successesFrom (load n : Nat) : Nat :=
  (range n).countP fun m => load ≤ 2 * m && (reads m).delivered ≠ []

end

variable {reads : Nat → StreamRead} {requested : Option Nat} {n : Nat} {state : Capturing}

/-! ## The bytes -/

/-- The start of the stream, up to the cap. -/
structure Kept (stream bytes : List UInt8) (truncated : Bool) : Prop where
  bytes : bytes = stream.take maxSubprocessStreamBytes
  flag : truncated = true ↔ maxSubprocessStreamBytes < stream.length

theorem Kept.append {stream bytes truncated retained}
    (h : Kept stream bytes truncated) (chunk : List UInt8)
    (hretained : retained = min (maxSubprocessStreamBytes - bytes.length) chunk.length) :
    Kept (stream ++ chunk) (bytes ++ chunk.take retained)
      (truncated || retained < chunk.length) := by
  have hlength : bytes.length = min maxSubprocessStreamBytes stream.length := by simp [h.bytes]
  have htake : chunk.take retained = chunk.take (maxSubprocessStreamBytes - stream.length) :=
    take_eq_take_iff.mpr (by omega)
  constructor
  · rw [take_append, ← h.bytes, htake]
  · simp only [Bool.or_eq_true, h.flag, decide_eq_true_eq, length_append]
    omega

theorem deliveredBy_succ :
    deliveredBy reads (n + 1) = deliveredBy reads n ++ (reads n).delivered := by
  simp [deliveredBy, range_succ]

/-! ## The reads after a stop -/

theorem stopSeen_mono {load load'} (h : stopSeen requested load = true)
    (hle : load ≤ load') : stopSeen requested load' = true := by
  cases requested with
  | none => simp [stopSeen] at h
  | some moment =>
    simp only [stopSeen, Option.any_some, decide_eq_true_eq] at h ⊢
    omega

theorem successesFrom_succ {load} :
    successesFrom reads load (n + 1) = successesFrom reads load n +
      if load ≤ 2 * n ∧ (reads n).delivered ≠ [] then 1 else 0 := by
  simp [successesFrom, range_succ, countP_append, countP_singleton]

/-! ## Every round -/

/-- The loop before round `n`. -/
structure Reading (reads : Nat → StreamRead) (requested : Option Nat) (n : Nat)
    (state : Capturing) : Prop where
  kept : Kept (deliveredBy reads n) state.bytes state.truncated
  drained : ∀ load, stopSeen requested load = true →
    successesFrom reads load n ≤ state.readsAfterStop
  few : state.readsAfterStop < maxStopDrainReads

/-- What round `n` may return. -/
structure Returned (reads : Nat → StreamRead) (n : Nat) (capture : StreamCapture) : Prop where
  kept : Kept (deliveredBy reads (n + 1)) capture.bytes capture.truncated
  error : capture.error = none ↔ reads n = .data []

/-- A read without bytes changes nothing. -/
theorem Reading.quiet (h : Reading reads requested n state) (hnone : (reads n).delivered = []) :
    Reading reads requested (n + 1) state where
  kept := by
    rw [deliveredBy_succ, hnone, append_nil]
    exact h.kept
  drained := by
    intro load hseen
    simpa [successesFrom_succ, hnone] using h.drained load hseen
  few := h.few

theorem Reading.round (h : Reading reads requested n state) :
    match captureRound (stopSeen requested (2 * n)) (stopSeen requested (2 * n + 1)) state
      (reads n) with
    | .inl next => Reading reads requested (n + 1) next
    | .inr capture => Returned reads n capture := by
  cases hread : reads n with
  | interrupted => exact h.quiet (by rw [hread]; rfl)
  | failed error => exact ⟨(h.quiet (by rw [hread]; rfl)).kept, by simp [Capturing.finish, hread]⟩
  | wouldBlock =>
    have hquiet := h.quiet (by rw [hread]; rfl)
    cases hstop : stopSeen requested (2 * n + 1) with
    | false => exact hquiet
    | true => exact ⟨hquiet.kept, by simp [Capturing.finish, hread]⟩
  | data chunk =>
    cases chunk with
    | nil => exact ⟨(h.quiet (by rw [hread]; rfl)).kept, by simp [Capturing.finish, hread]⟩
    | cons first rest =>
      have hkept := h.kept.append (first :: rest) rfl
      have hnext : deliveredBy reads (n + 1) = deliveredBy reads n ++ first :: rest := by
        rw [deliveredBy_succ, hread]
        rfl
      rw [← hnext] at hkept
      simp only [captureRound]
      by_cases hfull : maxStopDrainReads ≤ state.readsAfterStop + (stopSeen requested (2 * n)).toNat
      · rw [if_pos hfull]
        exact ⟨hkept, by simp [Capturing.finish, hread]⟩
      rw [if_neg hfull]
      refine ⟨hkept, fun load hseen => ?_, Nat.lt_of_not_le hfull⟩
      have hbefore := h.drained load hseen
      rw [successesFrom_succ]
      -- a read after this load saw the request as well, and was counted
      by_cases hle : load ≤ 2 * n
      · rw [stopSeen_mono hseen hle]
        show _ ≤ state.readsAfterStop + 1
        split <;> omega
      · simpa [hle] using Nat.le_trans hbefore (Nat.le_add_right ..)

theorem reading_of_readCapped (h : readCapped reads requested n = .inl state) :
    Reading reads requested n state := by
  induction n generalizing state with
  | zero =>
    cases h
    exact ⟨⟨rfl, by simp [deliveredBy]⟩, by simp [successesFrom], by decide⟩
  | succ n ih =>
    rw [readCapped] at h
    cases hbefore : readCapped reads requested n with
    | inr capture => simp [hbefore] at h
    | inl before =>
      rw [hbefore] at h
      have hround := (ih hbefore).round
      dsimp only at h
      rwa [h] at hround

theorem exists_returnsIn {capture} (h : readCapped reads requested n = .inr capture) :
    ∃ m < n, ReturnsIn reads requested m capture := by
  induction n with
  | zero => cases h
  | succ n ih =>
    cases hbefore : readCapped reads requested n with
    | inl state => exact ⟨n, Nat.lt_succ_self n, h, state, hbefore⟩
    | inr before =>
      have hsame : readCapped reads requested (n + 1) = .inr before := by rw [readCapped, hbefore]
      obtain ⟨m, hlt, hm⟩ := ih (hbefore.trans (hsame.symm.trans h))
      exact ⟨m, Nat.lt_succ_of_lt hlt, hm⟩

/-- **Capped capture.** Whatever the reads and whenever a stop is requested, the
result is the start of what was delivered, with an error unless the stream
ended; at the end of the stream it is returned at the latest. From a load that
sees the request on, few reads deliver bytes. -/
theorem capped_stream_capture (reads : Nat → StreamRead) (requested : Option Nat) (n : Nat) :
    (∀ capture, ReturnsIn reads requested n capture → Returned reads n capture) ∧
    (reads n = .data [] → ∃ m ≤ n, ∃ capture, ReturnsIn reads requested m capture) ∧
    ∀ state, readCapped reads requested n = .inl state → ∀ load,
      stopSeen requested load = true → successesFrom reads load (n + 1) ≤ maxStopDrainReads := by
  refine ⟨?_, ?_, ?_⟩
  · rintro capture ⟨hreturn, state, hstate⟩
    have hround := (reading_of_readCapped hstate).round
    simp only [readCapped, hstate] at hreturn
    rwa [hreturn] at hround
  · intro hend
    cases hstate : readCapped reads requested n with
    | inl state =>
      refine ⟨n, Nat.le_refl n, state.finish none, ?_, state, hstate⟩
      simp [readCapped, hstate, hend, captureRound]
    | inr capture =>
      obtain ⟨m, hlt, hm⟩ := exists_returnsIn hstate
      exact ⟨m, Nat.le_of_lt hlt, capture, hm⟩
  · intro state hstate load hseen
    have h := reading_of_readCapped hstate
    have hdrained := h.drained load hseen
    have hfew := h.few
    rw [successesFrom_succ]
    split <;> omega

end CrashMonitor.Process
