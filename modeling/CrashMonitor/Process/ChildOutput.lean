import Mathlib.Data.List.Basic

/-!
# The tail of a child's output

`platform/macos/child_output.rs`: a thread drains each output pipe of the child
and keeps the last bytes of the stream. A chunk at least as long as the
capacity replaces all that was kept and counts as a truncation, also where the
stream began with it and nothing was lost.
-/

namespace CrashMonitor.Process

open List

structure StreamState where
  bytes : List UInt8
  truncated : Bool
  readError : Option String
  finished : Bool
  deriving DecidableEq

def StreamState.empty : StreamState := ⟨[], false, none, false⟩

namespace StreamState

/-- `StreamCapture::push`; sizes are below the saturation bound of `usize`. -/
def push (capacity : Nat) (state : StreamState) (bytes : List UInt8) : StreamState :=
  if capacity ≤ bytes.length then
    { state with bytes := bytes.drop (bytes.length - capacity), truncated := true }
  else
    let overflow := state.bytes.length + bytes.length - capacity
    { state with
      bytes := state.bytes.drop overflow ++ bytes
      truncated := state.truncated || overflow ≠ 0 }

def finish (state : StreamState) (error : Option String) : StreamState :=
  { state with readError := error, finished := true }

end StreamState

/-- What `read` on the pipe returns; no byte means the end of the stream. -/
inductive PipeRead where
  | bytes (chunk : List UInt8)
  | interrupted
  | failed (error : String)

/-- The loop of `start_drain`; without a further result it is still reading. -/
def drain (capacity : Nat) : StreamState → List PipeRead → StreamState
  | state, [] => state
  | state, .bytes [] :: _ => state.finish none
  | state, .bytes chunk :: rest => drain capacity (state.push capacity chunk) rest
  | state, .interrupted :: rest => drain capacity state rest
  | state, .failed error :: _ => state.finish (some error)

/-- The chunks that the loop reads. -/
def chunks : List PipeRead → List (List UInt8)
  | [] => []
  | .bytes [] :: _ => []
  | .bytes chunk :: rest => chunk :: chunks rest
  | .interrupted :: rest => chunks rest
  | .failed _ :: _ => []

/-- The stream so far, cut to the capacity. -/
def streamTail (capacity : Nat) (stream : List UInt8) : List UInt8 :=
  stream.drop (stream.length - capacity)

/-- The state after these chunks. -/
structure Holds (capacity : Nat) (read : List (List UInt8)) (state : StreamState) : Prop where
  tail : state.bytes = streamTail capacity read.flatten
  flag : state.truncated = true ↔
    capacity < read.flatten.length ∨ ∃ chunk ∈ read, capacity ≤ chunk.length

variable {capacity : Nat} {read : List (List UInt8)} {state : StreamState}

/-- Both ways of pushing keep the end of what was kept and the chunk. -/
theorem push_bytes (chunk : List UInt8) :
    (state.push capacity chunk).bytes = streamTail capacity (state.bytes ++ chunk) := by
  rw [streamTail, length_append, drop_append]
  unfold StreamState.push
  split
  next hlong =>
    rw [drop_of_length_le (l := state.bytes) (by omega), nil_append]
    show chunk.drop (chunk.length - capacity) = _
    congr 1
    omega
  next hshort =>
    rw [Nat.sub_eq_zero_of_le (m := state.bytes.length) (by omega)]
    rfl

theorem streamTail_append (stream chunk : List UInt8) :
    streamTail capacity (streamTail capacity stream ++ chunk) =
      streamTail capacity (stream ++ chunk) := by
  rw [streamTail, streamTail, drop_append, streamTail, drop_drop, drop_append]
  simp only [length_append, length_drop]
  congr 2 <;> omega

theorem Holds.push (h : Holds capacity read state) (chunk : List UInt8) :
    Holds capacity (read ++ [chunk]) (state.push capacity chunk) := by
  have hflatten : (read ++ [chunk]).flatten = read.flatten ++ chunk := by simp
  have hlength : state.bytes.length = min read.flatten.length capacity := by
    rw [h.tail, streamTail, length_drop]
    omega
  constructor
  · rw [push_bytes, h.tail, streamTail_append, hflatten]
  simp only [hflatten, length_append, mem_append, mem_singleton,
    or_and_right, exists_or, exists_eq_left]
  unfold StreamState.push
  split
  next hlong => simp [hlong]
  next hshort =>
    -- the flag is set where it was, or where the overflow drops something
    simp only [Bool.or_eq_true, h.flag, decide_eq_true_eq, hshort, or_false]
    have hmore : capacity < read.flatten.length + chunk.length ↔
        capacity < read.flatten.length ∨ state.bytes.length + chunk.length - capacity ≠ 0 := by
      omega
    rw [hmore, or_right_comm]

theorem Holds.drain (h : Holds capacity read state) (reads : List PipeRead) :
    Holds capacity (read ++ chunks reads) (drain capacity state reads) := by
  induction reads generalizing read state with
  | nil => simpa [chunks, Process.drain] using h
  | cons result rest ih =>
    cases result with
    | bytes chunk =>
      cases chunk with
      | nil => simpa [chunks, Process.drain] using ⟨h.tail, h.flag⟩
      | cons first chunk =>
        have hnext := ih (h.push (first :: chunk))
        rwa [append_assoc] at hnext
    | interrupted => exact ih h
    | failed error => simpa [chunks, Process.drain] using ⟨h.tail, h.flag⟩

/-- **The tail of a stream.** Whatever the chunks, exactly the last bytes are
kept. The flag says whether a byte was dropped, except where a stream of
exactly the capacity came in one chunk. -/
theorem child_output_tail (capacity : Nat) (reads : List PipeRead) :
    (drain capacity .empty reads).bytes = streamTail capacity (chunks reads).flatten ∧
      (((drain capacity .empty reads).truncated = true ↔
          capacity < (chunks reads).flatten.length) ↔ ((chunks reads).flatten.length = capacity →
          ∀ chunk ∈ chunks reads, chunk.length < capacity)) := by
  have hempty : Holds capacity [] .empty := ⟨by simp [streamTail, StreamState.empty],
    by simp [StreamState.empty]⟩
  have h : Holds capacity (chunks reads) (drain capacity .empty reads) := hempty.drain reads
  refine ⟨h.tail, ?_⟩
  rw [h.flag]
  constructor
  · intro hflag hlength chunk hmem
    by_contra hlong
    have := hflag.mp (.inr ⟨chunk, hmem, Nat.le_of_not_lt hlong⟩)
    omega
  · intro hshort
    refine or_iff_left_of_imp ?_
    rintro ⟨chunk, hmem, hlong⟩
    have hle : chunk.length ≤ (chunks reads).flatten.length :=
      (sublist_flatten_of_mem hmem).length_le
    by_contra hlt
    have := hshort (by omega) chunk hmem
    omega

/-- Nothing is lost, and the flag is set. -/
theorem first_chunk_truncated :
    (drain 3 .empty [.bytes [1, 2, 3]]).bytes = (chunks [.bytes [1, 2, 3]]).flatten ∧
      (drain 3 .empty [.bytes [1, 2, 3]]).truncated = true := by
  decide

end CrashMonitor.Process
