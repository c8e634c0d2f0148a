import CrashMonitor.Report.Threads
import Mathlib.Data.List.Pairwise

/-!
# The frame-pointer walk

`inspect_thread` and `walk_backtrace` (`collectors/thread.rs`) follow the saved
frame pointers of a thread: a frame holds the previous frame pointer and, eight
bytes on, the return address. `format_threads` takes a backtrace of 129
addresses for one that was cut off, so a chain of exactly 128 frames is reported
as cut although it ended.
-/

namespace CrashMonitor.Threads

open Lib Report List

/-- The words that `read_u64` can read in the target. -/
abbrev TargetMemory := UInt64 → Option UInt64

/-- `u64::checked_add`. -/
def checkedAdd (a b : UInt64) : Option UInt64 :=
  if a.toNat + b.toNat < 2 ^ 64 then some (a + b) else none

/-! ## The walk -/

def walkBacktrace (memory : TargetMemory) (fp : UInt64) : Nat → List UInt64
  | 0 => []
  | depth + 1 =>
    if fp = 0 ∨ fp % 8 ≠ 0 then []
    else match (checkedAdd fp 8).bind memory with
      | none => []
      | some lr =>
        if lr = 0 then []
        -- the upper bits may carry a pointer authentication code
        else (lr &&& 0x0000ffffffffffff) ::
          match memory fp with
          | none => []
          | some prev => if prev ≤ fp then [] else walkBacktrace memory prev depth

def maxDepth : Nat := 128

/-- `inspect_thread` after the registers are read. -/
def inspectThread (memory : TargetMemory) (registers : SortedMap String UInt64) : List UInt64 :=
  let fp := (registers.entries.lookup "fp").getD 0
  let pc := (registers.entries.lookup "pc").getD 0
  pc :: walkBacktrace memory fp maxDepth

/-! ## Chains of frames -/

structure StackFrame where
  fp : UInt64
  returnAddress : UInt64

/-- The memory holds the frame. -/
structure StackFrame.In (frame : StackFrame) (memory : TargetMemory) : Prop where
  nonzero : frame.fp ≠ 0
  aligned : frame.fp % 8 = 0
  word : (checkedAdd frame.fp 8).bind memory = some frame.returnAddress
  returns : frame.returnAddress ≠ 0

/-- The return address, cut to 48 bits. -/
def StackFrame.shown (frame : StackFrame) : Nat := frame.returnAddress.toNat % 2 ^ 48

/-- Frames from `fp` on, the address of each saved in the one before it. -/
inductive Chain (memory : TargetMemory) : UInt64 → List StackFrame → Prop where
  | nil {fp} : Chain memory fp []
  | single {frame} : frame.In memory → Chain memory frame.fp [frame]
  | cons {frame next rest} :
      frame.In memory → memory frame.fp = some next → frame.fp < next →
      Chain memory next rest → Chain memory frame.fp (frame :: rest)

variable {memory : TargetMemory} {fp : UInt64} {depth : Nat} {frame : StackFrame}
  {frames : List StackFrame}

/-- No frame is met twice. -/
theorem Chain.increasing (h : Chain memory fp frames) :
    (frames.map (·.fp)).Pairwise (· < ·) ∧ ∀ frame ∈ frames, fp ≤ frame.fp := by
  induction h with
  | nil => simp
  | single hframe => simp
  | @cons frame next rest hframe hnext hlt hrest ih =>
    have habove : ∀ later ∈ rest, frame.fp < later.fp :=
      fun later hmem => UInt64.lt_of_lt_of_le hlt (ih.2 later hmem)
    constructor
    · simpa [ih.1] using habove
    · simpa using fun later hmem => UInt64.le_of_lt (habove later hmem)

theorem Chain.take (h : Chain memory fp frames) (n : Nat) : Chain memory fp (frames.take n) := by
  induction h generalizing n with
  | nil =>
    rw [take_nil]
    exact .nil
  | single hframe =>
    cases n with
    | zero => exact .nil
    | succ n => simpa using Chain.single hframe
  | cons hframe hnext hlt _ ih =>
    cases n with
    | zero => exact .nil
    | succ n => exact .cons hframe hnext hlt (ih n)

/-! ## What the walk finds -/

theorem shown_eq (lr : UInt64) : (lr &&& 0x0000ffffffffffff).toNat = lr.toNat % 2 ^ 48 := by
  exact Nat.and_two_pow_sub_one_eq_mod lr.toNat 48

/-- The walk at a frame. -/
theorem walkBacktrace_of_in (h : frame.In memory) (depth : Nat) :
    (walkBacktrace memory frame.fp (depth + 1)).map (·.toNat) = frame.shown ::
      match memory frame.fp with
      | none => []
      | some prev =>
        if prev ≤ frame.fp then [] else (walkBacktrace memory prev depth).map (·.toNat) := by
  rw [walkBacktrace, if_neg (by simp [h.nonzero, h.aligned]), h.word]
  simp only [if_neg h.returns, map_cons, shown_eq]
  cases memory frame.fp with
  | none => rfl
  | some prev =>
    dsimp only
    split <;> rfl

/-- The walk shows a chain. -/
theorem exists_chain (memory : TargetMemory) (depth : Nat) (fp : UInt64) :
    ∃ frames, Chain memory fp frames ∧ frames.length ≤ depth ∧
      (walkBacktrace memory fp depth).map (·.toNat) = frames.map (·.shown) := by
  induction depth generalizing fp with
  | zero => exact ⟨[], .nil, Nat.le_refl _, rfl⟩
  | succ depth ih =>
    by_cases hin : ∃ frame : StackFrame, frame.In memory ∧ frame.fp = fp
    · obtain ⟨frame, hframe, rfl⟩ := hin
      rw [walkBacktrace_of_in hframe]
      cases hprev : memory frame.fp with
      | none => exact ⟨[frame], .single hframe, by simp, rfl⟩
      | some prev =>
        by_cases hle : prev ≤ frame.fp
        · exact ⟨[frame], .single hframe, by simp, by simp [hle]⟩
        obtain ⟨frames, hchain, hlength, hwalk⟩ := ih prev
        exact ⟨frame :: frames, .cons hframe hprev (UInt64.not_le.mp hle) hchain,
          Nat.succ_le_succ hlength, by simp [hle, hwalk]⟩
    · refine ⟨[], .nil, Nat.zero_le _, ?_⟩
      -- going on would take a frame
      unfold walkBacktrace
      split
      · rfl
      split
      · rfl
      next hgood _ lr hlr =>
        split
        · rfl
        next hreturns =>
          rw [not_or, not_not] at hgood
          exact absurd ⟨⟨fp, lr⟩, ⟨hgood.1, hgood.2, hlr, hreturns⟩, rfl⟩ hin

/-- A chain that fits into the depth is walked. -/
theorem Chain.walked (h : Chain memory fp frames) (hle : frames.length ≤ depth) :
    frames.length ≤ ((walkBacktrace memory fp depth).map (·.toNat)).length := by
  induction h generalizing depth with
  | nil => exact Nat.zero_le _
  | single hframe =>
    cases depth with
    | zero => cases hle
    | succ depth =>
      rw [walkBacktrace_of_in hframe]
      simp
  | cons hframe hnext hlt hrest ih =>
    cases depth with
    | zero => cases hle
    | succ depth =>
      rw [walkBacktrace_of_in hframe, hnext]
      simpa [UInt64.not_le.mpr hlt] using ih (Nat.le_of_succ_le_succ hle)

/-- A walk that keeps fewer frames than it may has met the end of the chain. -/
theorem Chain.length_le (h : Chain memory fp frames)
    (hshort : (walkBacktrace memory fp depth).length < depth) :
    frames.length ≤ (walkBacktrace memory fp depth).length := by
  have hle : (frames.take ((walkBacktrace memory fp depth).length + 1)).length ≤ depth := by
    rw [length_take]
    omega
  have hwalked := (h.take _).walked hle
  rw [length_take, length_map] at hwalked
  omega

/-- **The backtrace.** It is the program counter and the return addresses of
the longest chain of at most 128 frames from the frame pointer on. -/
theorem backtrace_longest_chain (memory : TargetMemory) (registers : SortedMap String UInt64) :
    let fp := (registers.entries.lookup "fp").getD 0
    ∃ frames, Chain memory fp frames ∧ frames.length ≤ maxDepth ∧
      (∀ other, Chain memory fp other → other.length ≤ maxDepth →
        other.length ≤ frames.length) ∧
      (inspectThread memory registers).map (·.toNat) =
        ((registers.entries.lookup "pc").getD 0).toNat :: frames.map (·.shown) ∧
      (frames.map (·.fp)).Nodup := by
  intro fp
  obtain ⟨frames, hchain, hlength, hwalk⟩ := exists_chain memory maxDepth fp
  refine ⟨frames, hchain, hlength, ?_, by rw [inspectThread, map_cons, hwalk],
    hchain.increasing.1.imp UInt64.ne_of_lt⟩
  intro other hother hle
  simpa [hwalk] using hother.walked hle

/-! ## The truncation flag -/

/-- A captured thread whose registers were read. -/
def unwound (memory : TargetMemory) (registers : SortedMap String UInt64)
    (thread : RawThreadData) : RawThreadData := { thread with
    registers := some (.ofList (registers.entries.map fun entry => (entry.1, entry.2.toNat)))
    backtrace := (inspectThread memory registers).map (·.toNat) }

/-- The chain goes on behind the last frame that the walk keeps. -/
def Continues (memory : TargetMemory) (fp : UInt64) : Prop :=
  ∃ frames, Chain memory fp frames ∧ (walkBacktrace memory fp maxDepth).length < frames.length

/-- The flag and the note of a thread say whether its chain goes on. -/
def Truthful (report : ThreadReport) (continues : Prop) : Prop :=
  (report.unwindTruncated = true ↔ continues) ∧
    (report.unwindNote = some "frame_pointer_depth_limit" ↔ continues)

/-- **The flag.** It is truthful unless the chain ends with its 128th frame. -/
theorem unwind_truncated_truthful_iff (memory : TargetMemory)
    (registers : SortedMap String UInt64) (thread : RawThreadData) (images : List RawImageData)
    (symbols : SortedMap Nat String) (i : Nat) :
    let fp := (registers.entries.lookup "fp").getD 0
    Truthful (formatThread images symbols (unwound memory registers thread) i)
        (Continues memory fp) ↔ ((∃ frames, Chain memory fp frames ∧ frames.length = maxDepth) →
        ∃ frames, Chain memory fp frames ∧ maxDepth < frames.length) := by
  intro fp
  obtain ⟨kept, hchain, hle, hwalk⟩ := exists_chain memory maxDepth fp
  have hkept : (walkBacktrace memory fp maxDepth).length = kept.length := by
    simpa using congrArg List.length hwalk
  have hfull : (∃ frames, Chain memory fp frames ∧ frames.length = maxDepth) ↔
      kept.length = maxDepth := by
    constructor
    · rintro ⟨frames, hframes, hlength⟩
      have := hframes.walked (Nat.le_of_eq hlength)
      rw [length_map, hkept] at this
      omega
    · exact fun h => ⟨kept, hchain, h⟩
  have hflag : (unwound memory registers thread).backtrace.length ≥ 129 ↔
      kept.length = maxDepth := by
    show ((inspectThread memory registers).map _).length ≥ 129 ↔ _
    rw [length_map, inspectThread, length_cons, hkept]
    unfold maxDepth at hle ⊢
    omega
  have hnote : (unwindNote (unwound memory registers thread) = "frame_pointer_depth_limit" ↔
      kept.length = maxDepth) := by
    rw [← hflag, unwindNote, if_neg (by simp [unwound])]
    split <;> simp_all
  have hmore : Continues memory fp → kept.length = maxDepth := by
    rintro ⟨frames, hframes, hmore⟩
    by_contra hne
    exact absurd (hframes.length_le (by omega)) (Nat.not_le_of_lt hmore)
  simp only [Truthful, formatThread, decide_eq_true_eq, hflag, hnote, Option.some.injEq, hfull,
    and_self]
  constructor
  · intro htrue hlength
    have hcontinues := htrue.mp hlength
    rwa [Continues, hkept, hlength] at hcontinues
  intro h
  refine ⟨fun hlength => ?_, hmore⟩
  have hcontinues := h hlength
  rwa [Continues, hkept, hlength]

/-- A chain of 128 frames: the last one has nothing saved. -/
def fullChain : TargetMemory := fun address =>
  if address % 16 = 8 then some 1
  else if address = 2048 then none
  else some (address + 16)

/-- The walk met the end of the chain, and the report says that it was cut. -/
theorem full_chain_flagged : ¬ Continues fullChain 16 ∧ (formatThread [] .empty
        (unwound fullChain (.ofList [("fp", 16)]) ⟨0, none, true, none, [], none⟩)
        0).unwindTruncated = true := by
  have hlength : (walkBacktrace fullChain 16 129).length = 128 := by decide +kernel
  constructor
  · rintro ⟨frames, hchain, hmore⟩
    have hkept : (walkBacktrace fullChain 16 maxDepth).length = 128 := by decide +kernel
    have hle : frames.length ≤ (walkBacktrace fullChain 16 129).length :=
      hchain.length_le (by omega)
    omega
  · decide +kernel

end CrashMonitor.Threads
