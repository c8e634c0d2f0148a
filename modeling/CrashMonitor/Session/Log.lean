import CrashMonitor.Session.Lock

/-!
# Interrupted appends to the session log

An append writes the record and its newline in separate calls. A process that
stops between them, or a write that fails there, leaves a tail without a
newline, and the next record continues that tail. So a record whose append
returned success is a line of its own exactly if the log ended with a line
when the append began.
-/

namespace CrashMonitor.Session

open Interleave Lib.Lines Store Function List
variable {dir : Path} {start : Bytes} {s s' : Disk}

/-! ## Sequences of appends -/

/-- The append of one line. -/
def appendLine (dir : Path) (caller : Caller) (line : String) : Prog fileSig (Except String Unit) :=
  (appendSessionRecordLocked dir caller line).run.expand sessionCalls

/-- An append that was begun: the log it found, and whether it returned success. -/
structure Append where
  record : SessionRecord
  before : Bytes
  succeeded : Bool

def Append.bytes (append : Append) : Bytes := textBytes (renderRecord append.record)

/-- Appends one after the other; each returned or was stopped. -/
inductive Appends (dir : Path) : Disk → List Append → Disk → Prop where
  | nil (s : Disk) : Appends dir s [] s
  | returned {caller record result rest s s' s''}
      (hrun : Run diskStep (appendLine dir caller (renderRecord record)) s result s')
      (h : Appends dir s' rest s'') : Appends dir s (⟨record, s.log dir, result.isOk⟩ :: rest) s''
  | stopped {caller record rest s s' s''}
      (hstop : Stops diskStep (appendLine dir caller (renderRecord record)) s s')
      (h : Appends dir s' rest s'') : Appends dir s (⟨record, s.log dir, false⟩ :: rest) s''

/-! ## The log only grows -/

theorem log_grows {o r} (h : diskStep o s r s')
    (hs : start <+: s.log dir) : start <+: s'.log dir := by
  cases o with
  | store o | currentTime => rwa [show s' = s from h]
  | findLock d | openLock d | lockMetadata d | readLock d limit | removeLock d =>
    cases r with
    | error e => rwa [show s' = s from h]
    | ok _ => rwa [h.2]
  | syncParent d =>
    cases r with
    | error e | ok _ => rwa [show s' = s from h]
  | writeLog d bytes =>
    cases r with
    | error e => rwa [show s' = s from h]
    | ok written =>
      rw [h.2]
      by_cases hdir : dir = d
      · subst hdir
        simp only [update_self]
        exact hs.trans (prefix_append _ _)
      · simp only [update_of_ne hdir]
        exact hs

theorem log_grows_of_stops {α : Type} {p : Prog fileSig α} (h : Stops diskStep p s s')
    (hs : start <+: s.log dir) : start <+: s'.log dir := by
  apply h.keeps (K := fun s => start <+: s.log dir) _ hs
  intro o s r s' hstep hlog
  exact log_grows hstep hlog

theorem Appends.log_grows {appends : List Append} (h : Appends dir s appends s')
    (hs : start <+: s.log dir) : start <+: s'.log dir := by
  induction h with
  | nil s => exact hs
  | returned hrun _ ih => exact ih (log_grows_of_stops (.of_run hrun) hs)
  | stopped hstop _ ih => exact ih (log_grows_of_stops hstop hs)

/-! ## A success writes the whole line -/

theorem writeAll_writes (dir : Path) {rounds bytes} (s : Disk)
    (h : bytes.length ≤ rounds) : Yields diskStep s (writeAll dir rounds bytes) fun _ s' =>
      s'.log dir = s.log dir ++ bytes := by
  induction rounds generalizing bytes s with
  | zero =>
    have hnil : bytes = [] := length_eq_zero_iff.mp (by omega)
    subst hnil
    exact .pure (append_nil _).symm
  | succ rounds ih =>
    unfold writeAll
    split
    next hnil =>
      subst hnil
      exact .pure (append_nil _).symm
    have hwrite : Yields diskStep s (writeLog dir bytes) fun written s' =>
        written ≤ bytes.length ∧ s'.log dir = s.log dir ++ bytes.take written := by
      rintro r s' hstep written rfl
      rw [hstep.2]
      exact ⟨hstep.1, update_self ..⟩
    apply hwrite.bind
    rintro written s₁ ⟨hle, hlog⟩
    split
    · exact .throw
    next hne =>
    have hrest : (bytes.drop written).length ≤ rounds := by
      rw [length_drop]
      omega
    apply (ih s₁ hrest).mono
    intro _ s₂ hlog₂
    rw [hlog₂, hlog, append_assoc, take_append_drop]

theorem writeRecord_writes {dir line s} : Yields diskStep s (writeRecord dir line) fun _ s' =>
      s'.log dir = s.log dir ++ (textBytes line ++ [newline]) := by
  apply (writeAll_writes dir s (Nat.le_refl _)).bind
  intro _ s₁ hlog
  have hone : [newline].length ≤ 1 := Nat.le_refl 1
  apply (writeAll_writes dir s₁ hone).mono
  intro _ s₂ hlog₂
  rw [hlog₂, hlog, append_assoc]

/-- The steps of an append's calls. -/
def appendingStep : Steps storeSig Disk := expandedSteps diskStep sessionCalls

section

variable {s : Disk} (caller : Caller)

theorem storeCall_keeps {o s s' r} (h : Run diskStep (performFile (.store o)) s r s') : s' = s := by
  cases h with
  | call hstep hret =>
    cases hret
    exact hstep

theorem checkpoint_keeps : Yields appendingStep s (checkpoint caller) fun _ s' => s' = s := by
  intro r s' h _ _
  exact storeCall_keeps h

theorem probe_keeps {what} : Yields appendingStep s (probe caller what) fun _ s' => s' = s := by
  intro r s' h _ _
  exact storeCall_keeps h

theorem appendSession_writes {dir line} :
    Yields appendingStep s (appendSession caller dir line) fun _ s' =>
      s'.log dir = s.log dir ++ (textBytes line ++ [newline]) := by
  rintro r s' h _ rfl
  exact (writeRecord_writes).run h

theorem appendSessionRecordLocked_writes {dir line} :
    Yields appendingStep s (appendSessionRecordLocked dir caller line) fun _ s' =>
      s'.log dir = s.log dir ++ (textBytes line ++ [newline]) := by
  unfold appendSessionRecordLocked
  split
  · exact .throw
  apply (checkpoint_keeps caller).bind
  rintro _ _ rfl
  apply ((probe_keeps caller).mapError).bind
  rintro _ _ rfl
  apply (probe_keeps caller).bind
  rintro _ _ rfl
  apply (checkpoint_keeps caller).bind
  rintro _ _ rfl
  apply ((appendSession_writes caller).mapError).bind
  intro _ s₁ hlog
  apply ((probe_keeps caller).mapError).bind
  rintro _ _ rfl
  apply (probe_keeps caller).bind
  rintro _ _ rfl
  refine (checkpoint_keeps caller).mono ?_
  rintro _ _ rfl
  exact hlog

end

theorem appendLine_writes {caller line}
    (h : Run diskStep (appendLine dir caller line) s (.ok ()) s') :
    s'.log dir = s.log dir ++ (textBytes line ++ [newline]) :=
  (appendSessionRecordLocked_writes caller).run (run_expand h)

/-- The line of a success stays where it was written. -/
theorem Appends.written {appends : List Append} (h : Appends dir s appends s') :
    ∀ append ∈ appends, append.succeeded = true →
      append.before ++ (append.bytes ++ [newline]) <+: s'.log dir := by
  induction h with
  | nil s =>
    intro append hmem
    cases hmem
  | @returned caller record result rest s s₁ s₂ hrun hrest ih =>
    intro append hmem hsucceeded
    rcases mem_cons.mp hmem with rfl | hmem
    · cases result with
      | error e => cases hsucceeded
      | ok _ =>
        apply hrest.log_grows
        rw [appendLine_writes hrun]
        exact prefix_rfl
    · exact ih append hmem hsucceeded
  | @stopped caller record rest s s₁ s₂ hstop hrest ih =>
    intro append hmem hsucceeded
    rcases mem_cons.mp hmem with rfl | hmem
    · cases hsucceeded
    · exact ih append hmem hsucceeded

/-! ## Lines of their own -/

/-- The record of an append is a complete line of its own. -/
def Append.Survives (append : Append) (file : Bytes) : Prop :=
  StandsAt file append.before.length append.bytes

/-- Every successful append left its record as a line of its own. -/
def AllSurvive (appends : List Append) (file : Bytes) : Prop :=
  ∀ append ∈ appends, append.succeeded = true → append.Survives file

/-- Every successful append found a log that ended with a line. -/
def AllFoundLineStart (appends : List Append) : Prop :=
  ∀ append ∈ appends, append.succeeded = true → AtLineStart append.before

/-- **Session records.** Over any appends, returned, failed or stopped anywhere,
the records of the successful ones are all lines of their own exactly if each
of these found a log that ended with a line. -/
theorem session_records_survive_iff {dir : Path} {appends : List Append} {s s' : Disk}
    (h : Appends dir s appends s') :
    AllSurvive appends (s'.log dir) ↔ AllFoundLineStart appends := by
  have heach : ∀ append ∈ appends, append.succeeded = true →
      (append.Survives (s'.log dir) ↔ AtLineStart append.before) := by
    intro append hmem hsucceeded
    exact standsAt_iff (h.written append hmem hsucceeded)
  constructor
  · intro hall append hmem hsucceeded
    exact (heach append hmem hsucceeded).mp (hall append hmem hsucceeded)
  · intro hall append hmem hsucceeded
    exact (heach append hmem hsucceeded).mpr (hall append hmem hsucceeded)

/-! ## A torn append -/

section

variable (dir : Path) (caller : Caller) {line : String}

theorem appendLine_can_succeed (h : Fits line) (s : Disk) :
    ∃ s', Run diskStep (appendLine dir caller line) s (.ok ()) s' := by
  have hrun : Run (workingStep committedHere) (appendLine dir caller line) s _ _ :=
    .of_exec respond_works ..
  obtain ⟨_, hok, -⟩ := (appendSessionRecordLocked_works caller h).run (run_expand hrun)
  rw [hok] at hrun
  exact ⟨_, hrun.mono fun _ _ _ _ hstep => hstep.1⟩

theorem stops_store {α : Type} (o : storeSig.Op) (r : storeSig.Res o)
    {next : storeSig.Res o → Prog fileSig α} {s s'} (h : Stops diskStep (next r) s s') :
    Stops diskStep (.call (S := fileSig) (.store o) next) s s' := .call (S := fileSig) rfl h

/-- An append that is stopped in front of the newline. -/
theorem appendLine_can_stop (h : Fits line) (hline : textBytes line ≠ []) (s : Disk) :
    ∃ s', Stops diskStep (appendLine dir caller line) s s' ∧
      s'.log dir = s.log dir ++ textBytes line := by
  obtain ⟨rounds, hrounds⟩ : ∃ n, (textBytes line).length = n + 1 :=
    Nat.exists_eq_succ_of_ne_zero (by simpa using hline)
  obtain ⟨next, hwrite⟩ : ∃ next, sessionCalls (caller, .appendSession dir line) =
      .call (.writeLog dir (textBytes line)) next := by
    show ∃ next, (writeRecord dir line).run = _
    unfold writeRecord
    rw [hrounds, writeAll, if_neg hline]
    exact ⟨_, rfl⟩
  refine ⟨{ s with log := update s.log dir (s.log dir ++ textBytes line) }, ?_, update_self ..⟩
  unfold appendLine appendSessionRecordLocked
  rw [if_neg (Nat.not_lt.mpr h)]
  -- the two checkpoints and the two openings, then the record in one write
  apply stops_store (caller, .checkpoint) (.ok ())
  apply stops_store (caller, .probe _) (.ok ())
  apply stops_store (caller, .probe _) (.ok ())
  apply stops_store (caller, .checkpoint) (.ok ())
  show Stops diskStep ((sessionCalls (caller, .appendSession dir line)).bind _) s _
  rw [hwrite]
  apply Stops.call (S := fileSig) (o := .writeLog dir (textBytes line))
    (r := .ok (textBytes line).length) _ (.here _ _)
  refine ⟨Nat.le_refl _, ?_⟩
  rw [take_length]

end

/-- The records of two sessions that crashed. -/
def firstRecord : SessionRecord := ⟨"a", "", "", "crash", 0, none, none, none⟩
def secondRecord : SessionRecord := ⟨"b", "", "", "crash", 0, none, none, none⟩

theorem fits_firstRecord : Fits (renderRecord firstRecord) := by decide +kernel

theorem fits_secondRecord : Fits (renderRecord secondRecord) := by decide +kernel

def emptyDisk : Disk := ⟨fun _ => none, fun _ => [], 0⟩

/-- A session log in which the first append stands as a line. -/
def firstLine : Bytes := textBytes (renderRecord firstRecord) ++ [newline]

/-- Two appends that succeed, and a third that is stopped in front of its
newline. -/
def undisturbedAppends : List Append :=
  [⟨firstRecord, [], true⟩, ⟨secondRecord, firstLine, true⟩,
    ⟨firstRecord, firstLine ++ (textBytes (renderRecord secondRecord) ++ [newline]), false⟩]

theorem records_on_empty_log_survive : ∃ s', Appends ["data"] emptyDisk undisturbedAppends s' ∧
      AllSurvive undisturbedAppends (s'.log ["data"]) := by
  obtain ⟨s₁, hfirst⟩ := appendLine_can_succeed ["data"] recordingCaller fits_firstRecord emptyDisk
  obtain ⟨s₂, hsecond⟩ := appendLine_can_succeed ["data"] recordingCaller fits_secondRecord s₁
  have hlog₁ : s₁.log ["data"] = firstLine := appendLine_writes hfirst
  have hlog₂ := appendLine_writes hsecond
  have hrecord : textBytes (renderRecord firstRecord) ≠ [] := by decide +kernel
  obtain ⟨s₃, hstop, -⟩ := appendLine_can_stop ["data"] recordingCaller fits_firstRecord hrecord s₂
  have happends : Appends ["data"] emptyDisk undisturbedAppends s₃ := by
    unfold undisturbedAppends
    rw [← hlog₁, ← hlog₂]
    exact .returned hfirst (.returned hsecond (.stopped hstop (.nil s₃)))
  refine ⟨s₃, happends, (session_records_survive_iff happends).mpr ?_⟩
  unfold AllFoundLineStart undisturbedAppends
  decide +kernel

/-- The first append is stopped in front of its newline; the second returns
success, and its record is no line. -/
theorem second_record_joins_torn_line : ∃ s', Appends ["data"] emptyDisk [⟨firstRecord, [], false⟩,
          ⟨secondRecord, textBytes (renderRecord firstRecord), true⟩] s' ∧
      textBytes (renderRecord secondRecord) ∉ completeLines (s'.log ["data"]) := by
  have hfirst : textBytes (renderRecord firstRecord) ≠ [] := by decide +kernel
  obtain ⟨s₁, hstop, hlog₁⟩ := appendLine_can_stop ["data"] recordingCaller
    fits_firstRecord hfirst emptyDisk
  obtain ⟨s₂, hrun⟩ := appendLine_can_succeed ["data"] recordingCaller fits_secondRecord s₁
  have hlog₂ := appendLine_writes hrun
  have htorn : s₁.log ["data"] = textBytes (renderRecord firstRecord) := hlog₁
  refine ⟨s₂, ?_, ?_⟩
  · apply Appends.stopped hstop
    rw [← htorn]
    exact Appends.returned hrun (Appends.nil s₂)
  have hjoined : newline ∉ textBytes (renderRecord firstRecord) ++
      textBytes (renderRecord secondRecord) := by
    rw [mem_append, not_or]
    exact ⟨newline_not_mem_recordBytes _, newline_not_mem_recordBytes _⟩
  rw [hlog₂, htorn, ← append_assoc, completeLines, linesFrom_line hjoined]
  intro hmem
  rw [nil_append, linesFrom, mem_singleton] at hmem
  have hlength := congrArg List.length hmem
  rw [length_append] at hlength
  have := length_pos_iff.mpr hfirst
  omega

end CrashMonitor.Session
