import CrashMonitor.Lib.CompactText
import CrashMonitor.Lib.MachineInt
import CrashMonitor.EventLoop.Machine
import Mathlib.Data.UInt

/-!
# The state file of the rate limiter

`PersistedRateState` of `filters/rate_limiter.rs`: what is written, what is
read back, and the bounds on both. The file is JSON without spaces; the text
is ASCII, so a character is a byte. How serde reads it is left open except
that it takes back what it wrote.
-/

namespace CrashMonitor.Filters

open Lib CompactText EventLoop

def rateStateVersion : Nat := 1
def maxPersistedEventsPerType : Nat := 1024
def maxRateStateBytes : Nat := 128 * 1024

structure PersistedRateEntry where
  reportType : ReportType
  timestampsMs : List UInt64
  deriving DecidableEq

structure PersistedRateState where
  version : Nat
  entries : List PersistedRateEntry
  deriving DecidableEq

/-! ## The text -/

def versionField : Text := "\x7b\"version\":".toList
def entriesField : Text := ',' :: "\"entries\":[".toList
def reportTypeField : Text := '\x7b' :: "\"report_type\":\"".toList
def timestampsField : Text := ",\"timestamps_ms\":[".toList
def closing : Text := "\x7d".toList

def writeTimestamp (t : UInt64) : Text := writeNat t.toNat

def writeEntry (entry : PersistedRateEntry) : Text :=
  reportTypeField ++ (entry.reportType.asStr.toList ++ ('"' ::
    (timestampsField ++ (writeItems writeTimestamp entry.timestampsMs ++ closing))))

/-- `serde_json::to_vec` of the state. -/
def writeState (state : PersistedRateState) : Text :=
  versionField ++ (writeNat state.version ++
    (entriesField ++ (writeItems writeEntry state.entries ++ closing)))

/-- `serde_json::from_slice`, which takes back what was written. -/
structure RateSerde where
  read : Text → Except String PersistedRateState
  read_write : ∀ state, read (writeState state) = .ok state

/-! ## A reader -/

def readTimestamp : Reader UInt64 := fun input => (readNat input).bind fun read =>
    if read.1 < UInt64.size then some (UInt64.ofNat read.1, read.2) else none

/-- A report type with the quote that ends it. -/
def readReportType : Reader ReportType := fun input =>
  [ReportType.crash, .anr, .snapshot, .exitFailure, .signalFailure, .oom].findSome?
    fun reportType => (expect (reportType.asStr.toList ++ ['"']) input).map (reportType, ·)

def readEntry : Reader PersistedRateEntry := fun input =>
  (expect reportTypeField input).bind fun input => (readReportType input).bind fun kind =>
  (expect timestampsField kind.2).bind fun input =>
  (readItems readTimestamp (input.length + 1) input).bind fun times =>
  (expect closing times.2).map fun rest => (⟨kind.1, times.1⟩, rest)

def readState (input : Text) : Option PersistedRateState :=
  (expect versionField input).bind fun input => (readNat input).bind fun version =>
  (expect entriesField version.2).bind fun input =>
  (readItems readEntry (input.length + 1) input).bind fun entries =>
  (expect closing entries.2).bind fun rest =>
  if rest = [] then some ⟨version.1, entries.1⟩ else none

theorem readTimestamp_writeTimestamp (t : UInt64) {rest} (hrest : Stops rest) :
    readTimestamp (writeTimestamp t ++ rest) = some (t, rest) := by
  rw [readTimestamp, writeTimestamp, readNat_writeNat _ hrest, Option.bind_some,
    if_pos (UInt64.toNat_lt_size t), UInt64.ofNat_toNat]

theorem writeNat_head (n : Nat) : ∃ c tail, writeNat n = c :: tail ∧ c ≠ ']' := by
  cases h : writeNat n with
  | nil => exact absurd h Nat.toDigits_ne_nil
  | cons c tail =>
    refine ⟨c, tail, rfl, ?_⟩
    rintro rfl
    have hdigit : ']'.isDigit = true := isDigit_of_mem_writeNat (n := n) (by rw [h]; simp)
    cases hdigit

variable (reportType : ReportType)

theorem readReportType_append (rest : Text) :
    readReportType (reportType.asStr.toList ++ '"' :: rest) = some (reportType, rest) := by
  cases reportType <;> simp [readReportType, expect, ReportType.asStr]

theorem readEntry_writeEntry (entry : PersistedRateEntry) (rest : Text) :
    readEntry (writeEntry entry ++ rest) = some (entry, rest) := by
  have htimes : ∀ tail, readItems readTimestamp
      ((writeItems writeTimestamp entry.timestampsMs ++ tail).length + 1)
      (writeItems writeTimestamp entry.timestampsMs ++ tail) = some (entry.timestampsMs, tail) := by
    intro tail
    apply readItems_writeItems
    · intro t _ rest hrest
      exact readTimestamp_writeTimestamp t hrest.stops
    · intro t _
      exact writeNat_head t.toNat
    · have := length_lt_writeItems writeTimestamp entry.timestampsMs
      rw [List.length_append]
      omega
  rw [readEntry, writeEntry, List.append_assoc, expect_append, Option.bind_some,
    List.append_assoc, List.cons_append, readReportType_append, Option.bind_some,
    List.append_assoc, expect_append, Option.bind_some, List.append_assoc, htimes,
    Option.bind_some, expect_append, Option.map_some]

theorem writeEntry_head (entry : PersistedRateEntry) :
    ∃ c tail, writeEntry entry = c :: tail ∧ c ≠ ']' := by
  exact ⟨_, _, rfl, by decide⟩

theorem readState_writeState (state : PersistedRateState) :
    readState (writeState state) = some state := by
  have hversion : ∀ tail, readNat (writeNat state.version ++ (entriesField ++ tail)) =
      some (state.version, entriesField ++ tail) := by
    intro tail
    apply readNat_writeNat
    exact stops_cons (by decide)
  have hentries : ∀ tail, readItems readEntry
      ((writeItems writeEntry state.entries ++ tail).length + 1)
      (writeItems writeEntry state.entries ++ tail) = some (state.entries, tail) := by
    intro tail
    apply readItems_writeItems
    · intro entry _ rest _
      exact readEntry_writeEntry entry rest
    · intro entry _
      exact writeEntry_head entry
    · have := length_lt_writeItems writeEntry state.entries
      rw [List.length_append]
      omega
  have hend : expect closing closing = some [] := by
    have := expect_append closing []
    rwa [List.append_nil] at this
  rw [readState, writeState, expect_append, Option.bind_some, hversion, Option.bind_some,
    expect_append, Option.bind_some, hentries, Option.bind_some, hend, Option.bind_some,
    if_pos rfl]

/-- The reader above is one that serde could be. -/
def compactSerde : RateSerde where
  read text := (readState text).elim (.error "expected value") .ok
  read_write state := by
    rw [readState_writeState]
    rfl

/-! ## The queues in memory and in the file -/

/-- The timestamps by report type, as the hash map of `load_state`. -/
abbrev Recent := ReportType → Option (List UInt64)

variable (recent : Recent)

/-- The queue of a type; `entry(..).or_default()`. -/
def Recent.of : List UInt64 := (recent reportType).getD []

/-- The newest timestamps of an entry, as far as they are loaded. -/
def loadedTimestamps (timestamps : List UInt64) : List UInt64 :=
  (timestamps.reverse.take maxPersistedEventsPerType).reverse

/-- `recent.insert` of a loaded entry. -/
def insertEntry (entry : PersistedRateEntry) : Recent :=
  Function.update recent entry.reportType (some (loadedTimestamps entry.timestampsMs))

/-- The loop of `load_state`: a later entry of a type replaces an earlier one. -/
def recentOf (entries : List PersistedRateEntry) : Recent := entries.foldl insertEntry fun _ => none

/-- The report types in the order of their names. -/
def reportTypesByName : List ReportType :=
  [.anr, .crash, .exitFailure, .oom, .signalFailure, .snapshot]

/-- The entries of `persist_state`, sorted by name. -/
def entriesOf : List PersistedRateEntry :=
  reportTypesByName.filterMap fun reportType => (recent reportType).map (⟨reportType, ·⟩)

/-- What the file holds for these queues. -/
def stateText : Text := writeState ⟨rateStateVersion, entriesOf recent⟩

/-- No queue is longer than an entry that is loaded whole. -/
def Recent.Bounded (limit : Nat) : Prop := ∀ reportType, (recent.of reportType).length ≤ limit

theorem mem_reportTypesByName : reportType ∈ reportTypesByName := by
  cases reportType <;> decide

theorem loadedTimestamps_of_le {timestamps : List UInt64}
    (h : timestamps.length ≤ maxPersistedEventsPerType) :
    loadedTimestamps timestamps = timestamps := by
  rw [loadedTimestamps, List.take_of_length_le (by rwa [List.length_reverse]), List.reverse_reverse]

/-- A fold of updates at different keys leaves each key what was put there. -/
theorem foldl_insertEntry {types : List ReportType} (hnodup : types.Nodup)
    (recent start : Recent) (reportType : ReportType) :
    (types.filterMap fun t => (recent t).map (PersistedRateEntry.mk t)).foldl
        insertEntry start reportType =
      if reportType ∈ types ∧ (recent reportType).isSome = true then
        (recent reportType).map loadedTimestamps
      else start reportType := by
  induction types generalizing start with
  | nil => simp
  | cons t types ih =>
    obtain ⟨hnot, hrest⟩ := List.nodup_cons.mp hnodup
    cases ht : recent t with
    | none =>
      rw [List.filterMap_cons_none (by rw [ht]; rfl), ih hrest]
      by_cases heq : reportType = t
      · subst heq
        simp [ht]
      · simp [heq]
    | some queue =>
      rw [List.filterMap_cons_some (by rw [ht]; rfl), List.foldl_cons, ih hrest]
      by_cases heq : reportType = t
      · subst heq
        simp [ht, hnot, insertEntry]
      · simp [heq, insertEntry]

/-- Queues that are short enough come back whole. -/
theorem recentOf_entriesOf {recent : Recent}
    (h : recent.Bounded maxPersistedEventsPerType) : recentOf (entriesOf recent) = recent := by
  funext reportType
  have hnodup : reportTypesByName.Nodup := by decide
  have hfold := foldl_insertEntry hnodup recent (fun _ => none) reportType
  rw [recentOf, entriesOf, hfold]
  have hqueue := h reportType
  cases hr : recent reportType with
  | none => simp
  | some queue =>
    rw [Recent.of, hr, Option.getD_some] at hqueue
    simp [mem_reportTypesByName, loadedTimestamps_of_le hqueue]

/-! ## The size of the file -/

theorem writeTimestamp_length_le (t : UInt64) : (writeTimestamp t).length ≤ 20 := by
  apply writeNat_length_le (by decide)
  have hsize := UInt64.toNat_lt_size t
  exact hsize.trans (by decide)

theorem asStr_length_le : reportType.asStr.toList.length ≤ 14 := by
  cases reportType <;> decide

theorem writeEntry_length_le {entry : PersistedRateEntry}
    (h : entry.timestampsMs.length ≤ maxPersistedEventsPerType) :
    (writeEntry entry).length ≤ 21560 := by
  have htimes : (writeItems writeTimestamp entry.timestampsMs).length ≤
      entry.timestampsMs.length * (20 + 1) + 1 :=
    writeItems_length_le fun t _ => writeTimestamp_length_le t
  have hname := asStr_length_le entry.reportType
  have hfield : reportTypeField.length = 16 := by decide
  have htimestamps : timestampsField.length = 18 := by decide
  have hclosing : closing.length = 1 := by decide
  unfold maxPersistedEventsPerType at h
  simp only [writeEntry, List.length_append, List.length_cons, hfield, htimestamps, hclosing]
  omega

/-- The bound on the file is never what stops the limiter. -/
theorem stateText_length_le {recent : Recent} (h : recent.Bounded maxPersistedEventsPerType) :
    (stateText recent).length ≤ maxRateStateBytes := by
  have hentries : ∀ entry ∈ entriesOf recent, (writeEntry entry).length ≤ 21560 := by
    intro entry hentry
    obtain ⟨reportType, -, hsome⟩ := List.mem_filterMap.mp hentry
    obtain ⟨queue, hqueue, rfl⟩ := Option.map_eq_some_iff.mp hsome
    apply writeEntry_length_le
    have := h reportType
    rwa [Recent.of, hqueue] at this
  have hcount : (entriesOf recent).length ≤ 6 := List.length_filterMap_le _ reportTypesByName
  have hitems := writeItems_length_le hentries
  have hversion : (writeNat rateStateVersion).length = 1 := by decide
  have hfield : versionField.length = 11 := by decide
  have hnext : entriesField.length = 12 := by decide
  have hclosing : closing.length = 1 := by decide
  simp only [stateText, writeState, List.length_append, hversion, hfield, hnext, hclosing]
  unfold maxRateStateBytes
  omega

/-! ## Loading -/

inductive StateLoadError where
  | recoverable (message : String)
  | fatal (message : String)

/-- The calls of a check that can fail. -/
inductive RateCall where
  | checkpoint (place : Nat)
  /-- `try_lock` of the queues in memory -/
  | recentLock
  /-- `acquire_rate_state_lock` -/
  | stateLock
  | openState
  | inspectState
  | readState
  | renameInvalid
  | syncQuarantine
  | ensureDirectory
  | createTemporary
  | writeTemporary
  | syncTemporary
  | publishState
  | syncDirectory
  deriving DecidableEq

/-- Which calls of one check fail, and how. -/
abbrev Faults := RateCall → Option String

/-- `load_state`. -/
def loadState (serde : RateSerde) (faults : Faults) (file : Option Text) :
    Except StateLoadError Recent :=
  match faults .openState with
  | some e => .error (.fatal e)
  | none =>
    match file with
    | none => .ok fun _ => none
    | some text =>
      match faults .inspectState, faults .readState with
      | some e, _ => .error (.fatal s!"cannot inspect rate-limit state: {e}")
      | none, readFault =>
        if text.length > maxRateStateBytes then
          .error (.recoverable s!"rate-limit state exceeds {maxRateStateBytes} bytes")
        else
          match readFault with
          | some e => .error (.fatal s!"cannot read rate-limit state: {e}")
          | none =>
            match serde.read text with
            | .error e => .error (.recoverable s!"invalid rate-limit state: {e}")
            | .ok persisted =>
              if persisted.version ≠ rateStateVersion then
                .error (.recoverable s!"unsupported rate-limit state version {persisted.version}")
              else .ok (recentOf persisted.entries)

/-- A file the limiter wrote, or none yet. -/
inductive FileHolds (recent : Recent) : Option Text → Prop where
  | absent (h : ∀ reportType, recent reportType = none) : FileHolds recent none
  | written : FileHolds recent (some (stateText recent))

theorem loadState_of_holds {serde faults recent file} (h : FileHolds recent file)
    (hbounded : recent.Bounded maxPersistedEventsPerType)
    (hopen : faults .openState = none) (hinspect : faults .inspectState = none)
    (hread : faults .readState = none) : loadState serde faults file = .ok recent := by
  cases h with
  | absent hnone =>
    have hempty : recent = fun _ => none := funext hnone
    simp [loadState, hopen, hempty]
  | written =>
    have hsize := stateText_length_le hbounded
    simp only [loadState, hopen, hinspect, hread]
    rw [if_neg (Nat.not_lt.mpr hsize), stateText]
    simp only [serde.read_write, ne_eq, not_true_eq_false, if_false, recentOf_entriesOf hbounded]

end CrashMonitor.Filters
