import CrashMonitor.Store.RetentionPolicy
import Mathlib.Data.List.Perm.Subperm

/-!
# Progress of retention

Both scans of a retention run give up on a root with more than a fixed number
of entries, before anything is deleted. A root that has grown past that bound
is never trimmed again: up to it, a run satisfies the limits or deletes every
report but the current one, and past it, it changes nothing.
-/

namespace CrashMonitor.Store

open MachineInt Trim List Ledger

/-! ## Configuration -/

/-- The retention part of the configuration. -/
structure RetentionConfig where
  enabled : Bool
  maxReports : Nat
  maxSizeMb : Nat
  maxAgeDays : Nat

/-- The retention check of `CrashReporterConfig::validate`. -/
def RetentionConfig.accepted (config : RetentionConfig) : Bool :=
  !(config.enabled && config.maxReports = 0)

/-- `u64::saturating_mul`. -/
def saturatingMul (a b : Nat) : Nat := min (a * b) u64Max

/-- `RetentionManager::new`, with durations in nanoseconds. -/
def RetentionConfig.limits (config : RetentionConfig) : RetentionLimits where
  maxCount := config.maxReports
  maxTotalBytes := saturatingMul config.maxSizeMb (1024 * 1024)
  maxAge := saturatingMul config.maxAgeDays 86400 * 1000000000

/-! ## The scans -/

section Scans

variable (scene : RetentionScene)

theorem cleanupTombstone_after (name : String) (kind : EntryKind) (deleted : List ReportEntry) :
    ∃ removed, (cleanupTombstone (ledgerCalls scene) name kind).after deleted
      = (.ok removed, deleted) := by
  have hinspect : after ((ledgerCalls scene).inspectTombstone name) deleted
      = (.ok (), deleted) := rfl
  rw [cleanupTombstone]
  by_cases htombstone : isRetentionTombstoneName name = true
  · rw [if_neg (by simp [htombstone]), after_bind hinspect]
    cases kind with
    | directory => exact ⟨true, rfl⟩
    | file => exact ⟨false, rfl⟩
    | symlink => exact ⟨false, rfl⟩
  · rw [if_pos (by simp [htombstone])]
    exact ⟨false, rfl⟩

/-- One entry of the scan for tombstones. -/
theorem cleanupTombstones_cons (entry : String × EntryKind) (rest : List (String × EntryKind))
    (inspected : Nat) (removedAny : Bool) (deleted : List ReportEntry) :
    ∃ removed,
      (cleanupTombstones (ledgerCalls scene) (entry :: rest) inspected removedAny).after deleted
        = if inspected ≥ maxRetentionScanEntries then
            (.error ("retention tombstone scan exceeds the bounded limit of " ++
              s!"{maxRetentionScanEntries} entries"), deleted)
          else (cleanupTombstones (ledgerCalls scene) rest (inspected + 1)
            (removedAny || removed)).after deleted := by
  have hread : after (ledgerCalls scene).readTombstone deleted = (.ok (), deleted) := rfl
  obtain ⟨removed, hremoved⟩ := cleanupTombstone_after scene entry.1 entry.2 deleted
  refine ⟨removed, ?_⟩
  rw [cleanupTombstones, after_bind (checkpoint_after ..)]
  by_cases hlast : inspected ≥ maxRetentionScanEntries
  · rw [if_pos hlast, if_pos hlast]
    rfl
  · rw [if_neg hlast, if_neg hlast, after_bind hread, after_bind hremoved]

variable (listing : List (String × EntryKind)) (inspected : Nat)

/-- A scan within the bound passes over every entry. -/
theorem cleanupTombstones_within (hbound : inspected + listing.length ≤ maxRetentionScanEntries)
    (removedAny : Bool) (deleted : List ReportEntry) :
    ∃ removed, (cleanupTombstones (ledgerCalls scene) listing inspected removedAny).after deleted
      = (.ok removed, deleted) := by
  induction listing generalizing inspected removedAny with
  | nil => exact ⟨removedAny, rfl⟩
  | cons entry rest ih =>
    simp only [length_cons] at hbound
    obtain ⟨removed, hcons⟩ :=
      cleanupTombstones_cons scene entry rest inspected removedAny deleted
    rw [hcons, if_neg (by omega)]
    exact ih (inspected + 1) (by omega) _

/-- A scan past the bound fails. -/
theorem cleanupTombstones_beyond (hinspected : inspected ≤ maxRetentionScanEntries)
    (hbound : maxRetentionScanEntries < inspected + listing.length) (removedAny : Bool)
    (deleted : List ReportEntry) :
    ∃ error, (cleanupTombstones (ledgerCalls scene) listing inspected removedAny).after deleted
      = (.error error, deleted) := by
  induction listing generalizing inspected removedAny with
  | nil =>
    simp only [length_nil] at hbound
    omega
  | cons entry rest ih =>
    simp only [length_cons] at hbound
    obtain ⟨removed, hcons⟩ :=
      cleanupTombstones_cons scene entry rest inspected removedAny deleted
    rw [hcons]
    by_cases hlast : inspected ≥ maxRetentionScanEntries
    · rw [if_pos hlast]
      exact ⟨_, rfl⟩
    · rw [if_neg hlast]
      exact ih (inspected + 1) (by omega) (by omega) _

/-- What the inventory takes from an entry of a root of reports. -/
def inventoried (entry : String × EntryKind) : List ReportEntry :=
  match ReportId.parse entry.1 with
  | some id => [scene.inspectReport id]
  | none => []

/-- An entry of a root that holds reports beside the lock file. -/
def isReportOrLock (entry : String × EntryKind) : Prop :=
  entry = (".retention.lock", .file) ∨ ∃ id : ReportId, entry = (id.text, .directory)

theorem collectEntry_after {entry} (h : isReportOrLock entry) {deleted} :
    (collectEntry (ledgerCalls scene) entry.1 entry.2).after deleted
      = (.ok (inventoried scene entry), deleted) := by
  rcases h with rfl | ⟨id, rfl⟩
  · have hlock : ReportId.parse ".retention.lock" = none := by decide +kernel
    rfl
  have hkind : after ((ledgerCalls scene).inspectKind id.text) deleted = (.ok (), deleted) := rfl
  simp only [collectEntry, if_neg id.head_ne_dot, after_bind hkind,
    ReportId.parse_text, inventoried]
  rfl

theorem collectEntries_within (hentries : ∀ entry ∈ listing, isReportOrLock entry)
    (hbound : inspected + listing.length ≤ maxRetentionScanEntries) (deleted : List ReportEntry) :
    (collectEntriesFrom (ledgerCalls scene) listing inspected).after deleted
      = (.ok (listing.flatMap (inventoried scene)), deleted) := by
  induction listing generalizing inspected with
  | nil => rfl
  | cons entry rest ih =>
    have hread : after (ledgerCalls scene).readEntry deleted = (.ok (), deleted) := rfl
    have hrest := ih (inspected + 1)
      (fun other hother => hentries other (mem_cons_of_mem entry hother))
      (by simp only [length_cons] at hbound; omega)
    simp only [length_cons] at hbound
    rw [collectEntriesFrom, after_bind (checkpoint_after ..), if_neg (by omega),
      after_bind hread, after_bind (collectEntry_after scene (hentries entry mem_cons_self)),
      after_bind hrest]
    rfl

end Scans

/-! ## A root of reports -/

section

variable (limits : RetentionLimits) (scene : RetentionScene) (ids : List ReportId)

/-- A root that contains only valid committed reports beside the lock file of
the retention, where the newest is the current one, nothing else is leased and
every deletion succeeds. -/
structure ReportsOnly : Prop where
  distinct : ids.Nodup
  listing : scene.listing.Perm
    ((".retention.lock", .file) :: ids.map fun id => (id.text, .directory))
  inspected : ∀ id ∈ ids, ∃ inode, (scene.inspectReport id).target = .committedDirectory id inode
  current : ∃ id ∈ ids, scene.current = some (scene.root, id) ∧ ∀ other ∈ ids, other ≠ id →
      (scene.inspectReport other).modified < (scene.inspectReport id).modified
  leased : ∀ id ∈ ids, scene.leased (scene.inspectReport id) = true →
    scene.current = some (scene.root, id)
  deletable : ∀ id ∈ ids, scene.undeletable (scene.inspectReport id) = false

/-- All limits hold for the reports that are there. -/
structure SatisfiesLimits (now : Nat) (entries : List ReportEntry) : Prop where
  age : ∀ entry ∈ entries, now - entry.modified ≤ limits.maxAge
  count : entries.length ≤ limits.maxCount
  bytes : bytesOf entries ≤ limits.maxTotalBytes

/-- A run ends with all limits satisfied, or with the current report alone. -/
def MakesProgress : Prop := ∃ deleted remaining result,
    (retainLocked (ledgerCalls scene) limits).after [] = (result, deleted) ∧
    (deleted ++ remaining).Perm (ids.map scene.inspectReport) ∧
    (SatisfiesLimits limits scene.now remaining ∨ ∀ entry ∈ remaining, scene.isCurrent entry)

end

section Progress

variable {limits : RetentionLimits} {scene : RetentionScene} {ids : List ReportId}

theorem SatisfiesLimits.of_hold {now entries}
    (hsorted : entries.Pairwise fun a b => a.modified ≤ b.modified)
    (h : limits.hold now entries = true) : SatisfiesLimits limits now entries := by
  simp only [RetentionLimits.hold, Bool.and_eq_true, withinCount, withinBytes,
    decide_eq_true_eq] at h
  obtain ⟨⟨hage, hcount⟩, hbytes⟩ := h
  refine ⟨?_, hcount, hbytes⟩
  -- the oldest entry comes first
  intro entry hentry
  cases entries with
  | nil => cases hentry
  | cons first rest =>
    simp only [withinAge, List.head?_cons, Option.all_some, decide_eq_true_eq] at hage
    rcases mem_cons.mp hentry with rfl | hentry
    · exact hage
    · have := rel_of_pairwise_cons hsorted hentry
      omega

theorem SatisfiesLimits.of_perm {now entries entries'}
    (h : SatisfiesLimits limits now entries) (hperm : entries.Perm entries') :
    SatisfiesLimits limits now entries' :=
  ⟨fun entry hentry => h.age entry (hperm.mem_iff.mpr hentry),
    hperm.length_eq ▸ h.count, bytesOf_perm hperm ▸ h.bytes⟩

section

variable (h : ReportsOnly scene ids)

include h

theorem ReportsOnly.entries : ∀ entry ∈ scene.listing, isReportOrLock entry := by
  intro entry hentry
  rcases mem_cons.mp (h.listing.mem_iff.mp hentry) with rfl | hentry
  · exact .inl rfl
  · obtain ⟨id, -, rfl⟩ := mem_map.mp hentry
    exact .inr ⟨id, rfl⟩

theorem ReportsOnly.inventory :
    (scene.listing.flatMap (inventoried scene)).Perm (ids.map scene.inspectReport) := by
  have hlock : inventoried scene (".retention.lock", .file) = [] := by
    have : ReportId.parse ".retention.lock" = none := by decide +kernel
    simp only [inventoried, this]
  refine (h.listing.flatMap_right _).trans ?_
  rw [flatMap_cons, hlock, nil_append, flatMap_map]
  have hids : (ids.flatMap fun id => inventoried scene (id.text, .directory))
      = ids.map scene.inspectReport := by
    simp [inventoried, ← map_eq_flatMap]
  rw [hids]

theorem ReportsOnly.length : scene.listing.length = ids.length + 1 := by
  rw [h.listing.length_eq]
  simp

/-- Only the current report is stuck. -/
theorem ReportsOnly.isCurrent_of_stuck {id} (hid : id ∈ ids)
    (hstuck : scene.stuck (scene.inspectReport id) = true) :
    scene.current = some (scene.root, id) := by
  obtain ⟨inode, htarget⟩ := h.inspected id hid
  rw [RetentionScene.stuck, h.deletable id hid, Bool.or_false, RetentionScene.isLeased,
    htarget] at hstuck
  simp only [Bool.or_eq_true, decide_eq_true_eq] at hstuck
  rcases hstuck with hcurrent | hleased
  · exact hcurrent
  · exact h.leased id hid hleased

/-- A list that begins with the current report has nothing else. -/
theorem ReportsOnly.all_current {first rest deleted}
    (hperm : (deleted ++ first :: rest).Perm (ids.map scene.inspectReport))
    (hsorted : (first :: rest).Pairwise fun a b => a.modified ≤ b.modified)
    (hstuck : scene.stuck first = true) : ∀ entry ∈ first :: rest, scene.isCurrent entry := by
  have hmem : ∀ entry ∈ first :: rest, ∃ id ∈ ids, scene.inspectReport id = entry := by
    intro entry hentry
    exact mem_map.mp (hperm.mem_iff.mp (mem_append_right _ hentry))
  obtain ⟨id, hid, hfirst⟩ := hmem first mem_cons_self
  have hcurrent := h.isCurrent_of_stuck hid (hfirst ▸ hstuck)
  intro entry hentry
  obtain ⟨other, hother, rfl⟩ := hmem entry hentry
  obtain ⟨inode, htarget⟩ := h.inspected other hother
  refine ⟨other, inode, htarget, ?_⟩
  -- another report would be older than the current one, which comes first
  by_cases hsame : other = id
  · rw [hsame]
    exact hcurrent
  obtain ⟨newest, -, hnewest, holder⟩ := h.current
  have hid' : newest = id := by
    rw [hnewest] at hcurrent
    simpa using hcurrent
  subst hid'
  have hlt := holder other hother hsame
  rcases mem_cons.mp hentry with heq | hentry
  · rw [heq, ← hfirst] at hlt
    omega
  have hle := rel_of_pairwise_cons hsorted hentry
  rw [← hfirst] at hle
  omega

/-- Within the bound, a run satisfies the limits or keeps the current report
alone. -/
theorem ReportsOnly.progress_within (hsize : bytesOf (ids.map scene.inspectReport) < 2 ^ 64)
    (hbound : ids.length + 1 ≤ maxRetentionScanEntries) : MakesProgress limits scene ids := by
  have hscan : after (cleanupRetentionTombstones (ledgerCalls scene)) [] = (.ok (), []) := by
    have hlist : after (ledgerCalls scene).scanTombstones [] = (.ok scene.listing, []) := rfl
    obtain ⟨removed, hremoved⟩ :=
      cleanupTombstones_within scene scene.listing 0 (by rw [h.length]; omega) false []
    rw [cleanupRetentionTombstones, after_bind hlist, after_bind hremoved]
    cases removed <;> rfl
  have hcollect : after (collectEntries (ledgerCalls scene)) []
      = (.ok (scene.listing.flatMap (inventoried scene)), []) := by
    have hlist : after (ledgerCalls scene).scanEntries [] = (.ok scene.listing, []) := rfl
    have hvalidate : after (ledgerCalls scene).validateRoot [] = (.ok (), []) := rfl
    rw [collectEntries, after_bind (checkpoint_after ..),
      after_bind hvalidate, after_bind hlist,
      collectEntries_within scene _ 0 h.entries (by rw [h.length]; omega) []]
  have hbytes : bytesOf (scene.listing.flatMap (inventoried scene)) ≤ u64Max := by
    rw [bytesOf_perm h.inventory]
    simp only [u64Max]
    omega
  obtain ⟨result, hrun, -⟩ := enforceLimits_after limits scene hbytes []
  have happend := trim_append (limits.hold scene.now) scene.stuck
    (sortByModified (scene.listing.flatMap (inventoried scene)))
  have hstop := fits_or_stuck_trim scene.stuck (limits.hold_nil scene.now)
    (sortByModified (scene.listing.flatMap (inventoried scene)))
  have hsorted := sortByModified_sorted (scene.listing.flatMap (inventoried scene))
  have hperm := (sortByModified_perm ..).trans h.inventory
  generalize trim (limits.hold scene.now) scene.stuck
    (sortByModified (scene.listing.flatMap (inventoried scene))) = trimmed
    at hrun happend hstop
  rw [← happend] at hsorted hperm
  refine ⟨trimmed.1, trimmed.2, result, ?_, hperm, ?_⟩
  · rw [retainLocked, after_bind hscan, after_bind hcollect]
    simpa using hrun
  have hremaining := (pairwise_append.mp hsorted).2.1
  rcases hstop with hhold | ⟨first, rest, hrest, hstuck⟩
  · exact .inl (.of_hold hremaining hhold)
  · rw [hrest] at hperm hremaining ⊢
    exact .inr (h.all_current hperm hremaining hstuck)

/-- Past the bound, a run fails and deletes nothing. -/
theorem ReportsOnly.run_beyond {limits} (hbound : maxRetentionScanEntries < ids.length + 1) :
    ∃ error, (retainLocked (ledgerCalls scene) limits).after [] = (.error error, []) := by
  have hlist : after (ledgerCalls scene).scanTombstones [] = (.ok scene.listing, []) := rfl
  obtain ⟨error, herror⟩ := cleanupTombstones_beyond scene scene.listing 0 (Nat.zero_le _)
    (by rw [h.length]; omega) false []
  refine ⟨error, ?_⟩
  have hscan : after (cleanupRetentionTombstones (ledgerCalls scene)) []
      = (.error error, []) := by
    rw [cleanupRetentionTombstones, after_bind hlist, after_bind_error herror]
  rw [retainLocked, after_bind_error hscan]

/-- Past the bound, the reports are left as they are. -/
theorem ReportsOnly.progress_beyond_iff (hbound : maxRetentionScanEntries < ids.length + 1) :
    MakesProgress limits scene ids ↔
      SatisfiesLimits limits scene.now (ids.map scene.inspectReport) := by
  obtain ⟨error, hrun⟩ := h.run_beyond hbound
  constructor
  · rintro ⟨deleted, remaining, result, hrun', hperm, hend⟩
    rw [hrun] at hrun'
    cases hrun'
    rcases hend with hlimits | hcurrent
    · exact hlimits.of_perm hperm
    -- all of them would be the current report, but there are at least two
    have hall : ∀ id ∈ ids, scene.current = some (scene.root, id) := by
      intro id hid
      obtain ⟨other, inode, htarget, hother⟩ := hcurrent _ (hperm.mem_iff.mpr (mem_map_of_mem hid))
      obtain ⟨inode', htarget'⟩ := h.inspected id hid
      rw [htarget'] at htarget
      cases htarget
      exact hother
    obtain ⟨current, -, hcur, -⟩ := h.current
    have hsub : ids ⊆ [current] := by
      intro id hid
      have := hall id hid
      rw [hcur] at this
      simp only [Option.some.injEq, Prod.mk.injEq, true_and] at this
      exact mem_singleton.mpr this.symm
    have hlength := (subperm_of_subset h.distinct hsub).length_le
    simp only [maxRetentionScanEntries, length_singleton] at hbound hlength
    omega
  · intro hlimits
    exact ⟨[], _, _, hrun, .refl _, .inl hlimits⟩

end

end Progress

/-- A run makes progress exactly when the root, with the lock file, has no
more entries than a scan may see, or the limits hold already. -/
theorem retention_progress_iff (config : RetentionConfig)
    (scene : RetentionScene) (ids : List ReportId) (hroot : ReportsOnly scene ids)
    (hsize : bytesOf (ids.map scene.inspectReport) < 2 ^ 64) :
    MakesProgress config.limits scene ids ↔
      ids.length + 1 ≤ maxRetentionScanEntries ∨
        SatisfiesLimits config.limits scene.now (ids.map scene.inspectReport) := by
  by_cases hbound : ids.length + 1 ≤ maxRetentionScanEntries
  · simp only [hbound, true_or, iff_true]
    exact hroot.progress_within hsize hbound
  · simp only [hbound, false_or]
    exact hroot.progress_beyond_iff (by omega)

/-! ## Roots of a given size -/

/-- The digit at a decimal place of a number. -/
def digitAt (n place : Nat) : Char := Nat.digitChar (n / place % 10)

def numberedText (n : Nat) : String :=
  String.ofList ([digitAt n 1000, digitAt n 100, digitAt n 10, digitAt n 1] ++
    List.replicate 28 '0')

theorem isHexDigit_digitAt (n place : Nat) : isHexDigit (digitAt n place) = true := by
  have hdigits : ∀ d < 10, isHexDigit (Nat.digitChar d) = true := by decide
  exact hdigits _ (Nat.mod_lt _ (by decide))

theorem digit_eq_of_digitAt {a b place} (h : digitAt a place = digitAt b place) :
    a / place % 10 = b / place % 10 := by
  have hdigits : ∀ d < 10, ∀ e < 10, Nat.digitChar d = Nat.digitChar e → d = e := by decide
  exact hdigits _ (Nat.mod_lt _ (by decide)) _ (Nat.mod_lt _ (by decide)) h

/-- The report id with a number of four digits. -/
def numberedId (n : Nat) : ReportId where
  text := numberedText n
  valid := by
    have hzero : isHexDigit '0' = true := rfl
    simp [isReportId, numberedText, isHexDigit_digitAt, hzero]

theorem numberedId_injective {a b} (ha : a < 10000) (hb : b < 10000)
    (h : numberedId a = numberedId b) : a = b := by
  have htext : numberedText a = numberedText b := congrArg ReportId.text h
  simp only [numberedText, String.ofList_inj, cons_append, nil_append,
    List.cons.injEq, and_true] at htext
  obtain ⟨h₁, h₂, h₃, h₄⟩ := htext
  have h₁ := digit_eq_of_digitAt h₁
  have h₂ := digit_eq_of_digitAt h₂
  have h₃ := digit_eq_of_digitAt h₃
  have h₄ := digit_eq_of_digitAt h₄
  omega

def numberedIds (n : Nat) : List ReportId := (List.range n).map numberedId

/-- A root of numbered reports, the first of which is the current and the
newest one. -/
def numberedScene (n : Nat) : RetentionScene where
  listing := (".retention.lock", .file) :: (numberedIds n).map fun id => (id.text, .directory)
  inspectLegacy _ := (0, 0)
  inspectReport id := ⟨.committedDirectory id 0, 1, if id = numberedId 0 then 1 else 0⟩
  now := 1
  root := []
  current := some ([], numberedId 0)
  leased _ := false
  undeletable _ := false

theorem reportsOnly_numbered {n} (hpos : 0 < n) (hn : n ≤ 10000) :
    ReportsOnly (numberedScene n) (numberedIds n) where
  distinct := by
    refine .map_on ?_ nodup_range
    intro a ha b hb hab
    rw [mem_range] at ha hb
    exact numberedId_injective (by omega) (by omega) hab
  listing := .refl _
  inspected := fun id _ => ⟨0, rfl⟩
  current := by
    refine ⟨numberedId 0, mem_map_of_mem (mem_range.mpr hpos), rfl, ?_⟩
    intro other _ hne
    simp [numberedScene, hne]
  leased := by
    intro id _ h
    cases h
  deletable := fun id _ => rfl

theorem bytesOf_numbered (n : Nat) :
    bytesOf ((numberedIds n).map (numberedScene n).inspectReport) = n := by
  simp [bytesOf, numberedIds, numberedScene, Function.comp_def]

/-- A hundred reports of a gigabyte together, for thirty days. -/
def usualConfig : RetentionConfig := ⟨true, 100, 1024, 30⟩

/-- The same with room for two reports. -/
def narrowConfig : RetentionConfig := ⟨true, 2, 1024, 30⟩

/-- Three reports are trimmed to two. -/
theorem small_root_progresses :
    ReportsOnly (numberedScene 3) (numberedIds 3) ∧
    ¬ SatisfiesLimits narrowConfig.limits 1
      ((numberedIds 3).map (numberedScene 3).inspectReport) ∧
    MakesProgress narrowConfig.limits (numberedScene 3) (numberedIds 3) := by
  have hroot : ReportsOnly (numberedScene 3) (numberedIds 3) :=
    reportsOnly_numbered (by decide) (by decide)
  refine ⟨hroot, fun hlimits => absurd hlimits.count (by decide), ?_⟩
  exact (retention_progress_iff narrowConfig _ _ hroot (by decide)).mpr (.inl (by decide))

/-- Ten thousand reports are never trimmed to the accepted limit of a hundred. -/
theorem crowded_root_not_trimmed :
    usualConfig.accepted = true ∧
    ReportsOnly (numberedScene 10000) (numberedIds 10000) ∧
    bytesOf ((numberedIds 10000).map (numberedScene 10000).inspectReport) < 2 ^ 64 ∧
    ¬ MakesProgress usualConfig.limits (numberedScene 10000) (numberedIds 10000) := by
  have hroot : ReportsOnly (numberedScene 10000) (numberedIds 10000) :=
    reportsOnly_numbered (by decide) (Nat.le_refl _)
  have hlength : (numberedIds 10000).length = 10000 := by simp [numberedIds]
  refine ⟨rfl, hroot, ?_, ?_⟩
  · rw [bytesOf_numbered]
    decide
  rw [hroot.progress_beyond_iff (by rw [hlength]; decide)]
  intro hlimits
  have hcount := hlimits.count
  rw [length_map, hlength] at hcount
  exact absurd hcount (by decide)

end CrashMonitor.Store
