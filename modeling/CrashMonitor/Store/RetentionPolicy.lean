import CrashMonitor.Lib.Trim
import CrashMonitor.Store.Retention
import Mathlib.Algebra.BigOperators.Group.List.Basic
import Mathlib.Algebra.GroupWithZero.Nat

/-!
# The policy of a retention run

The run of `RetentionManager::process` against a ledger that only writes down
what is deleted. On the ledger the three passes are one minimal trim of the
inventory: the shortest run of oldest entries after which all limits hold, up
to the first entry that cannot be deleted.
-/

namespace CrashMonitor.Store

open Lib Interleave MachineInt Trim List

/-! ## The run on a ledger -/

/-- A run that only writes down the entries it deletes. -/
abbrev Ledger := ExceptT String (StateM (List ReportEntry))

namespace Ledger

variable {α β : Type}

/-- The result of a run and the entries deleted by its end. -/
def after (x : Ledger α) (deleted : List ReportEntry) :
    Except String α × List ReportEntry := x.run.run deleted

@[simp] theorem after_pure (a : α) (deleted : List ReportEntry) :
    after (pure a) deleted = (.ok a, deleted) := rfl

@[simp] theorem after_throw (e : String) (deleted : List ReportEntry) :
    after (throw e : Ledger α) deleted = (.error e, deleted) := rfl

theorem after_bind_eq (x : Ledger α) (f : α → Ledger β) (deleted : List ReportEntry) :
    (x >>= f).after deleted = match x.after deleted with
      | (.ok a, deleted') => (f a).after deleted'
      | (.error e, deleted') => (.error e, deleted') := by
  show (match x.run.run deleted with
    | (r, deleted') => (ExceptT.bindCont f r).run deleted') = _
  cases hx : x.run.run deleted with
  | mk r deleted' =>
    have hafter : x.after deleted = (r, deleted') := hx
    rw [hafter]
    cases r with
    | ok a => rfl
    | error e => rfl

theorem after_bind {x} {f : α → Ledger β} {a deleted deleted'}
    (h : x.after deleted = (.ok a, deleted')) : (x >>= f).after deleted = (f a).after deleted' := by
  rw [after_bind_eq, h]

theorem after_bind_error {x} {f : α → Ledger β} {e deleted deleted'}
    (h : x.after deleted = (.error e, deleted')) :
    (x >>= f).after deleted = (.error e, deleted') := by
  rw [after_bind_eq, h]

end Ledger

/-- What a run meets on its root. -/
structure RetentionScene where
  listing : List (String × EntryKind)
  inspectLegacy : String → Nat × Nat
  inspectReport : ReportId → ReportEntry
  now : Nat
  root : Path
  current : Option (Path × ReportId)
  leased : ReportEntry → Bool
  undeletable : ReportEntry → Bool

/-- `entry_is_leased`: only report directories are. -/
def RetentionScene.isLeased (scene : RetentionScene) (entry : ReportEntry) : Bool :=
  match entry.target with
  | .legacyFile _ => false
  | .committedDirectory id _ => scene.current = some (scene.root, id) || scene.leased entry

/-- An entry that the passes do not get past. -/
def RetentionScene.stuck (scene : RetentionScene) (entry : ReportEntry) : Bool :=
  scene.isLeased entry || scene.undeletable entry

/-- The calls of a run that is not cancelled and whose inspections succeed. -/
def ledgerCalls (scene : RetentionScene) : RetentionCalls Ledger where
  checkpoint := pure ()
  scanTombstones := pure scene.listing
  readTombstone := pure ()
  inspectTombstone _ := pure ()
  removeStaleTombstone _ := pure ()
  syncRoot := pure ()
  validateRoot := pure ()
  scanEntries := pure scene.listing
  readEntry := pure ()
  inspectKind _ := pure ()
  inspectLegacy name := pure (scene.inspectLegacy name)
  inspectReport id := pure (scene.inspectReport id)
  now := pure scene.now
  entryIsLeased entry := pure (scene.isLeased entry)
  removeEntry entry :=
    if scene.undeletable entry then pure false
    else do
      modify (· ++ [entry])
      pure true

/-! ## The limits -/

/-- The oldest entry is within the age limit. -/
def withinAge (now maxAge : Nat) (entries : List ReportEntry) : Bool :=
  entries.head?.all fun entry => now - entry.modified ≤ maxAge

def withinCount (maxCount : Nat) (entries : List ReportEntry) : Bool := entries.length ≤ maxCount

/-- The size of entries together. -/
def bytesOf (entries : List ReportEntry) : Nat := (entries.map (·.size)).sum

def withinBytes (maxTotalBytes : Nat) (entries : List ReportEntry) : Bool :=
  bytesOf entries ≤ maxTotalBytes

variable (limits : RetentionLimits)

/-- All three limits hold. -/
def RetentionLimits.hold (now : Nat) (entries : List ReportEntry) : Bool :=
  withinAge now limits.maxAge entries && withinCount limits.maxCount entries &&
    withinBytes limits.maxTotalBytes entries

@[simp] theorem bytesOf_cons (entry : ReportEntry) (rest : List ReportEntry) :
    bytesOf (entry :: rest) = entry.size + bytesOf rest := by
  simp [bytesOf]

theorem bytesOf_append (front back : List ReportEntry) :
    bytesOf (front ++ back) = bytesOf front + bytesOf back := by
  simp [bytesOf]

theorem bytesOf_perm {entries entries'} (h : entries.Perm entries') :
    bytesOf entries = bytesOf entries' := (h.map _).sum_eq

theorem RetentionLimits.hold_nil (now : Nat) : limits.hold now [] = true := by
  simp [hold, withinAge, withinCount, withinBytes, bytesOf]

/-! ## The passes are one trim -/

section Passes

variable (scene : RetentionScene)

open Ledger

section

variable (entry : ReportEntry) (deleted : List ReportEntry)

theorem checkpoint_after : after (ledgerCalls scene).checkpoint deleted = (.ok (), deleted) := rfl

theorem removeEntry_after : after ((ledgerCalls scene).removeEntry entry) deleted
      = if scene.undeletable entry then (.ok false, deleted)
        else (.ok true, deleted ++ [entry]) := by
  simp only [ledgerCalls]
  by_cases h : scene.undeletable entry = true
  · rw [if_pos h, if_pos h]
    rfl
  · rw [if_neg h, if_neg h]
    rfl

theorem removeOldest_after : (removeOldest (ledgerCalls scene) entry).after deleted
      = if scene.stuck entry then (.ok false, deleted)
        else (.ok true, deleted ++ [entry]) := by
  have hleased : after ((ledgerCalls scene).entryIsLeased entry) deleted
      = (.ok (scene.isLeased entry), deleted) := rfl
  rw [removeOldest, after_bind hleased]
  by_cases h : scene.isLeased entry = true
  · simp [h, RetentionScene.stuck]
  · rw [if_neg h, removeEntry_after]
    simp [h, RetentionScene.stuck]

end

/-- One round of a pass: the oldest entry goes, or the pass ends with it. -/
theorem round_after {α : Type} (entry : ReportEntry) (goOn stop : Ledger α)
    (deleted : List ReportEntry) :
    (do
      (ledgerCalls scene).checkpoint
      if ← removeOldest (ledgerCalls scene) entry then goOn else stop : Ledger α).after
        deleted
      = if scene.stuck entry then stop.after deleted
        else goOn.after (deleted ++ [entry]) := by
  have hremove := removeOldest_after scene entry deleted
  rw [after_bind (checkpoint_after ..)]
  by_cases h : scene.stuck entry = true
  · rw [if_pos h] at hremove ⊢
    rw [after_bind hremove, if_neg (by simp)]
  · rw [if_neg h] at hremove ⊢
    rw [after_bind hremove, if_pos rfl]

theorem agePass_after (now maxAge : Nat) (entries deleted : List ReportEntry) :
    (agePass (ledgerCalls scene) now maxAge entries).after deleted
      = (.ok (trim (withinAge now maxAge) scene.stuck entries).2,
        deleted ++ (trim (withinAge now maxAge) scene.stuck entries).1) := by
  induction entries generalizing deleted with
  | nil => simp [agePass, trim]
  | cons entry rest ih =>
    have hfits : withinAge now maxAge (entry :: rest)
        = decide (now - entry.modified ≤ maxAge) := rfl
    rw [trim, hfits]
    by_cases hage : now - entry.modified ≤ maxAge
    · rw [agePass, after_bind (checkpoint_after ..)]
      simp [hage]
    have hround := round_after scene entry (agePass (ledgerCalls scene) now maxAge rest)
      (pure (entry :: rest)) deleted
    rw [after_bind (checkpoint_after ..)] at hround
    rw [agePass, after_bind (checkpoint_after ..), if_neg hage, hround]
    by_cases hstuck : scene.stuck entry = true
    · simp [hstuck]
    · simp [hstuck, hage, ih]

theorem countPass_after (maxCount : Nat) (entries deleted : List ReportEntry) :
    (countPass (ledgerCalls scene) maxCount entries).after deleted
      = (.ok (trim (withinCount maxCount) scene.stuck entries).2,
        deleted ++ (trim (withinCount maxCount) scene.stuck entries).1) := by
  induction entries generalizing deleted with
  | nil => simp [countPass, trim]
  | cons entry rest ih =>
    have hfits : withinCount maxCount (entry :: rest)
        = decide ((entry :: rest).length ≤ maxCount) := rfl
    rw [countPass, trim, hfits]
    by_cases hcount : (entry :: rest).length ≤ maxCount
    · rw [if_pos hcount, if_pos (by rw [decide_eq_true hcount]; rfl)]
      simp
    rw [if_neg hcount, round_after]
    by_cases hstuck : scene.stuck entry = true
    · simp [hstuck]
    · simp only [hstuck, decide_eq_false hcount, Bool.or_self, Bool.false_eq_true, if_false,
        ih, append_assoc, singleton_append]

/-- The total is exact as long as it fits. -/
theorem totalSize_after (entries : List ReportEntry) (total : Nat) (deleted : List ReportEntry)
    (hsize : total + bytesOf entries ≤ u64Max) :
    (totalSize (ledgerCalls scene) entries total).after deleted
      = (.ok (total + bytesOf entries), deleted) := by
  induction entries generalizing total with
  | nil => simp [totalSize, bytesOf]
  | cons entry rest ih =>
    rw [bytesOf_cons] at hsize ⊢
    rw [totalSize, after_bind (checkpoint_after ..),
      saturatingAdd_of_le (by omega), ih _ (by omega), Nat.add_assoc]

theorem sizePass_after (maxTotalBytes : Nat) (entries deleted : List ReportEntry) :
    (sizePass (ledgerCalls scene) maxTotalBytes entries (bytesOf entries)).after deleted
      = (.ok ((trim (withinBytes maxTotalBytes) scene.stuck entries).2,
          bytesOf (trim (withinBytes maxTotalBytes) scene.stuck entries).2),
        deleted ++ (trim (withinBytes maxTotalBytes) scene.stuck entries).1) := by
  induction entries generalizing deleted with
  | nil => simp [sizePass, trim]
  | cons entry rest ih =>
    have hfits : withinBytes maxTotalBytes (entry :: rest)
        = decide (bytesOf (entry :: rest) ≤ maxTotalBytes) := rfl
    have hrest : bytesOf (entry :: rest) - entry.size = bytesOf rest := by
      rw [bytesOf_cons]
      omega
    rw [sizePass, trim, hfits, hrest]
    by_cases hsize : bytesOf (entry :: rest) ≤ maxTotalBytes
    · rw [if_pos hsize, if_pos (by rw [decide_eq_true hsize]; rfl)]
      simp only [after_pure, append_nil]
    rw [if_neg hsize, round_after]
    by_cases hstuck : scene.stuck entry = true
    · simp only [hstuck, Bool.or_true, if_true, after_pure, append_nil]
    · simp only [hstuck, decide_eq_false hsize, Bool.or_self, Bool.false_eq_true, if_false,
        ih, append_assoc, singleton_append]

end Passes

theorem sortByModified_perm (entries : List ReportEntry) : (sortByModified entries).Perm entries :=
  perm_insertionSort _ entries

theorem sortByModified_sorted (entries : List ReportEntry) :
    (sortByModified entries).Pairwise fun a b => a.modified ≤ b.modified := by
  exact pairwise_insertionSort _ entries

/-- In a sorted inventory, what is within the age limit stays so. -/
theorem withinAge_onward (now maxAge : Nat) {entries}
    (hsorted : entries.Pairwise fun a b => a.modified ≤ b.modified) :
    FitsOnward (withinAge now maxAge) entries := by
  intro a rest hsuffix hfits
  have hpair : (a :: rest).Pairwise fun a b => a.modified ≤ b.modified :=
    hsorted.sublist hsuffix.sublist
  cases rest with
  | nil => rfl
  | cons b rest =>
    have hab := rel_of_pairwise_cons hpair mem_cons_self
    simp only [withinAge, List.head?_cons, Option.all_some, decide_eq_true_eq] at hfits ⊢
    omega

theorem withinCount_onward (maxCount : Nat) (entries : List ReportEntry) :
    FitsOnward (withinCount maxCount) entries := by
  intro a rest _ hfits
  simp only [withinCount, length_cons, decide_eq_true_eq] at hfits ⊢
  omega

/-- The three passes are one trim for all three limits. -/
theorem trim_hold (now : Nat) (stuck : ReportEntry → Bool) {entries}
    (hsorted : entries.Pairwise fun a b => a.modified ≤ b.modified) :
    let aged := trim (withinAge now limits.maxAge) stuck entries
    let counted := trim (withinCount limits.maxCount) stuck aged.2
    let sized := trim (withinBytes limits.maxTotalBytes) stuck counted.2
    trim (limits.hold now) stuck entries = (aged.1 ++ counted.1 ++ sized.1, sized.2) := by
  intro aged counted sized
  have hage := withinAge_onward now limits.maxAge hsorted
  have hcount := withinCount_onward limits.maxCount entries
  have hfirst := trim_trim (withinCount limits.maxCount) stuck hage
  have hall := trim_trim (withinBytes limits.maxTotalBytes) stuck (hage.and hcount)
  rw [hfirst] at hall
  exact hall

/-! ## The policy -/

/-- The entry of the report that the running finalizer has published. -/
def RetentionScene.isCurrent (scene : RetentionScene) (entry : ReportEntry) : Prop :=
  ∃ id inode, entry.target = .committedDirectory id inode ∧ scene.current = some (scene.root, id)

/-- What a run of the passes over an inventory is for. -/
structure EnforcesLimits (limits : RetentionLimits) (scene : RetentionScene)
    (inventory deleted remaining : List ReportEntry) (result : Except String Unit) : Prop where
  /-- The entries go from the oldest on. -/
  order : (deleted ++ remaining).Perm inventory ∧
    (deleted ++ remaining).Pairwise fun a b => a.modified ≤ b.modified
  /-- No entry that is leased or cannot be deleted goes. -/
  passable : ∀ entry ∈ deleted, scene.isLeased entry = false ∧ scene.undeletable entry = false
  /-- As long as an entry goes, some limit does not hold. -/
  shortest : ∀ front entry back, deleted = front ++ entry :: back →
    limits.hold scene.now (entry :: back ++ remaining) = false
  /-- The run only stops early in front of an entry it cannot get past. -/
  complete : limits.hold scene.now remaining = true ∨
    ∃ entry rest, remaining = entry :: rest ∧
      (scene.isLeased entry = true ∨ scene.undeletable entry = true)
  success : result = .ok () ↔ limits.hold scene.now remaining = true
  current : ∀ entry ∈ deleted, ¬ scene.isCurrent entry

theorem RetentionScene.isLeased_of_isCurrent {scene : RetentionScene} {entry}
    (h : scene.isCurrent entry) : scene.isLeased entry = true := by
  obtain ⟨id, inode, htarget, hcurrent⟩ := h
  simp [isLeased, htarget, hcurrent]

theorem not_hold_iff {limits : RetentionLimits} {now entries} :
    limits.hold now entries = false ↔
      entries.length > limits.maxCount ∨ bytesOf entries > limits.maxTotalBytes ∨
        (entries.head?.any fun entry => now - entry.modified > limits.maxAge) = true := by
  have hage : withinAge now limits.maxAge entries
      = !(entries.head?.any fun entry => now - entry.modified > limits.maxAge) := by
    cases entries with
    | nil => rfl
    | cons entry rest =>
      simp only [withinAge, List.head?_cons, Option.all_some, Option.any_some]
      by_cases h : now - entry.modified ≤ limits.maxAge
      · simp only [h, decide_true, gt_iff_lt, Nat.not_lt.mpr h, decide_false, Bool.not_false]
      · simp only [h, decide_false, gt_iff_lt, Nat.lt_of_not_le h, decide_true, Bool.not_true]
  cases hold : entries.head?.any fun entry => now - entry.modified > limits.maxAge with
  | true => simp [RetentionLimits.hold, hage, hold]
  | false =>
    simp only [RetentionLimits.hold, hage, hold, withinCount, withinBytes, Bool.not_false,
      Bool.true_and, Bool.and_eq_false_iff, decide_eq_false_iff_not, Nat.not_le, gt_iff_lt,
      Bool.false_eq_true, or_false]

/-- The passes trim the sorted inventory, and the check is about what is left. -/
theorem enforceLimits_after (scene : RetentionScene) {inventory : List ReportEntry}
    (hsize : bytesOf inventory ≤ u64Max) (deleted : List ReportEntry) :
    ∃ result, (enforceLimits (ledgerCalls scene) limits inventory).after deleted
      = (result, deleted ++
        (trim (limits.hold scene.now) scene.stuck (sortByModified inventory)).1) ∧
      (result = .ok () ↔ limits.hold scene.now
        (trim (limits.hold scene.now) scene.stuck (sortByModified inventory)).2 = true) := by
  by_cases hempty : inventory.isEmpty = true
  · have : inventory = [] := isEmpty_iff.mp hempty
    subst this
    refine ⟨.ok (), by simp [enforceLimits, sortByModified, trim], ?_⟩
    simp [sortByModified, trim, RetentionLimits.hold_nil]
  · have hnow : Ledger.after (ledgerCalls scene).now deleted = (.ok scene.now, deleted) := rfl
    have htrim := trim_hold limits scene.now scene.stuck (sortByModified_sorted inventory)
    simp only at htrim
    rw [enforceLimits, if_neg hempty, Ledger.after_bind hnow,
      Ledger.after_bind (agePass_after ..), Ledger.after_bind (countPass_after ..)]
    generalize haged : trim (withinAge scene.now limits.maxAge) scene.stuck
      (sortByModified inventory) = aged at htrim ⊢
    generalize hcounted : trim (withinCount limits.maxCount) scene.stuck aged.2 = counted at htrim ⊢
    have hbytes : 0 + bytesOf counted.2 ≤ u64Max := by
      have h₁ : bytesOf aged.1 + bytesOf aged.2 = bytesOf inventory := by
        rw [← bytesOf_append, ← haged, trim_append, bytesOf_perm (sortByModified_perm inventory)]
      have h₂ : bytesOf counted.1 + bytesOf counted.2 = bytesOf aged.2 := by
        rw [← bytesOf_append, ← hcounted, trim_append]
      omega
    rw [Ledger.after_bind (totalSize_after scene _ _ _ hbytes), Nat.zero_add,
      Ledger.after_bind (sizePass_after ..)]
    generalize trim (withinBytes limits.maxTotalBytes) scene.stuck counted.2 = sized at htrim ⊢
    rw [htrim]
    simp only [Ledger.after_bind (checkpoint_after ..), ← append_assoc]
    cases hhold : limits.hold scene.now sized.2 with
    | true =>
      refine ⟨.ok (), ?_, by simp⟩
      have hnot : ¬ _ := fun h => Bool.false_ne_true ((not_hold_iff.mpr h).symm.trans hhold)
      rw [if_neg hnot, Ledger.after_pure]
    | false =>
      rw [if_pos (not_hold_iff.mp hhold), Ledger.after_throw]
      exact ⟨_, rfl, by simp⟩

/-- A retention run deletes exactly the shortest run of oldest entries after
which all limits hold, up to the first entry it cannot get past. -/
theorem retention_policy_exact (limits : RetentionLimits) (scene : RetentionScene)
    (inventory : List ReportEntry) (hsize : bytesOf inventory < 2 ^ 64) :
    ∃ deleted remaining result,
      (enforceLimits (ledgerCalls scene) limits inventory).after [] = (result, deleted) ∧
      EnforcesLimits limits scene inventory deleted remaining result := by
  obtain ⟨result, hrun, hsuccess⟩ := enforceLimits_after limits scene
    (show bytesOf inventory ≤ u64Max by simp only [u64Max]; omega) []
  have happend := trim_append (limits.hold scene.now) scene.stuck (sortByModified inventory)
  have hstop := fits_or_stuck_trim scene.stuck (limits.hold_nil scene.now)
    (sortByModified inventory)
  generalize htrimmed : trim (limits.hold scene.now) scene.stuck (sortByModified inventory)
    = trimmed at hrun hsuccess happend hstop
  have hpass : ∀ entry ∈ trimmed.1, scene.stuck entry = false := by
    rw [← htrimmed]
    exact fun _ => not_stuck_of_mem_trim
  have hshort : ∀ k < trimmed.1.length,
      limits.hold scene.now ((sortByModified inventory).drop k) = false := by
    rw [← htrimmed]
    exact fun _ => not_fits_of_lt_trim
  have hfree : ∀ entry ∈ trimmed.1,
      scene.isLeased entry = false ∧ scene.undeletable entry = false := by
    intro entry hentry
    have := hpass entry hentry
    rwa [RetentionScene.stuck, Bool.or_eq_false_iff] at this
  refine ⟨trimmed.1, trimmed.2, result, by simpa using hrun, ?_, hfree, ?_, ?_, hsuccess, ?_⟩
  · rw [happend]
    exact ⟨sortByModified_perm inventory, sortByModified_sorted inventory⟩
  · intro front entry back hsplit
    have hlt : front.length < trimmed.1.length := by simp [hsplit]
    have := hshort front.length hlt
    rwa [← happend, hsplit, append_assoc, drop_left] at this
  · rcases hstop with hstop | ⟨entry, rest, hrest, hstuck⟩
    · exact .inl hstop
    · rw [RetentionScene.stuck, Bool.or_eq_true] at hstuck
      exact .inr ⟨entry, rest, hrest, hstuck⟩
  · intro entry hentry hcurrent
    have hleased := RetentionScene.isLeased_of_isCurrent hcurrent
    rw [(hfree entry hentry).1] at hleased
    cases hleased

/-- Two plain files under a limit of one, the older one last in the root. -/
def twoFiles : List ReportEntry :=
  [⟨.legacyFile "new.json", 10, 7⟩, ⟨.legacyFile "old.json", 20, 5⟩]

def quietScene : RetentionScene where
  listing := []
  inspectLegacy _ := (0, 0)
  inspectReport id := ⟨.committedDirectory id 0, 0, 0⟩
  now := 8
  root := []
  current := none
  leased _ := false
  undeletable _ := false

theorem older_file_deleted : bytesOf twoFiles < 2 ^ 64 ∧ ∃ deleted remaining result,
      (enforceLimits (ledgerCalls quietScene) ⟨1, 100, 100⟩ twoFiles).after []
        = (result, deleted) ∧
      EnforcesLimits ⟨1, 100, 100⟩ quietScene twoFiles deleted remaining result :=
  ⟨by decide, retention_policy_exact ⟨1, 100, 100⟩ quietScene twoFiles (by decide)⟩

end CrashMonitor.Store
