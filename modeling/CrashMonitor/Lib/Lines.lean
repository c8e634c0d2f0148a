import Mathlib.Data.List.Basic

/-!
# Line-oriented files

The complete lines of a file are those that end with a newline; what stands
behind the last newline is no line yet. A line keeps its place however much is
appended behind it, and new text starts a line exactly at a line start.
-/

namespace CrashMonitor.Lib.Lines

open List

def newline : UInt8 := 10

/-- The complete lines, where `start` was read of the first one already. -/
def linesFrom (start : List UInt8) : List UInt8 → List (List UInt8)
  | [] => []
  | b :: rest =>
    if b = newline then start :: linesFrom [] rest
    else linesFrom (start ++ [b]) rest

/-- The newline-terminated lines of a file. -/
def completeLines (file : List UInt8) : List (List UInt8) := linesFrom [] file

/-- Nothing stands behind the last newline. -/
def AtLineStart (file : List UInt8) : Prop := file = [] ∨ file.getLast? = some newline

instance (file : List UInt8) : Decidable (AtLineStart file) :=
  inferInstanceAs (Decidable (file = [] ∨ file.getLast? = some newline))

theorem linesFrom_line {line} (h : newline ∉ line) (start rest : List UInt8) :
    linesFrom start (line ++ newline :: rest) = (start ++ line) :: linesFrom [] rest := by
  induction line generalizing start with
  | nil => simp [linesFrom]
  | cons b line ih =>
    rw [mem_cons, not_or] at h
    obtain ⟨hb, hline⟩ := h
    rw [cons_append, linesFrom, if_neg (Ne.symm hb), ih hline, append_assoc, singleton_append]

/-- A line of its own at a place of the file. -/
def StandsAt (file : List UInt8) (offset : Nat) (line : List UInt8) : Prop :=
  AtLineStart (file.take offset) ∧ line ++ [newline] <+: file.drop offset

/-- Text that was put behind a file is a line of its own exactly if the file
ended with a line. -/
theorem standsAt_iff {file before line} (h : before ++ (line ++ [newline]) <+: file) :
    StandsAt file before.length line ↔ AtLineStart before := by
  obtain ⟨rest, rfl⟩ := h
  unfold StandsAt
  rw [append_assoc, take_left, drop_left]
  constructor
  · exact And.left
  · intro hstart
    exact ⟨hstart, prefix_append _ _⟩

end CrashMonitor.Lib.Lines
