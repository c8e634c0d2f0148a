import CrashMonitor.Shm.RoundTrip

/-!
# Shared memory — breadcrumbs as they were added

What `read_breadcrumbs` returns after a sequence of additions. Of every slot
it returns the newest records, each once, sorted by timestamp. The walk over
a ring is newest first and the sort is stable, so that records of one slot
with the same timestamp come out in the reverse of the order in which they
were added.
-/

namespace CrashMonitor.Shm

open Bytes Fallible StableSort List

variable {m₀ : Mem} {records : List BreadcrumbArgs} {L : LiveMapping}
variable {policy : ShmSnapshotPolicy} {snapshot : OwnedShmSnapshot}

/-! ## Additions only -/

section

variable (slot : Fin 8) (records : List BreadcrumbArgs) (m : Mem)

/-- The mapping and the statuses after some additions. -/
def addAll : List Int × Mem := runCalls (records.map .addBreadcrumb) m

/-- Every addition was accepted. -/
def AllAccepted : Prop := ∀ status ∈ (addAll records m).1, status = 0

/-- The records added to a slot, oldest first. -/
def addedTo : List BreadcrumbArgs := records.filter (·.threadSlot.toNat = slot)

theorem runCalls_statuses_length (calls : List SdkCall) (m : Mem) :
    (runCalls calls m).1.length = calls.length := by
  induction calls generalizing m with
  | nil => rfl
  | cons call calls ih => simp [runCalls, ih]

theorem acceptedOf_eq_self {calls statuses} (hlength : statuses.length = calls.length)
    (h : ∀ status ∈ statuses, status = 0) : acceptedOf calls statuses = calls := by
  induction calls generalizing statuses with
  | nil => rfl
  | cons call calls ih =>
    cases statuses with
    | nil => cases hlength
    | cons status statuses =>
      rw [forall_mem_cons] at h
      rw [acceptedOf, if_pos h.1, ih (Nat.succ.inj hlength) h.2]

theorem filterMap_crumbFor :
    (records.map .addBreadcrumb).filterMap (SdkCall.crumbFor slot) = addedTo slot records := by
  rw [filterMap_map, addedTo, ← filterMap_eq_filter]
  refine filterMap_congr fun args _ => ?_
  simp [SdkCall.crumbFor, Option.guard]

end

/-- The journal of some accepted additions to a fresh mapping. -/
theorem addAll_represents (hm : FreshMapping m₀) (haccepted : AllAccepted records m₀) :
    ∃ j, Represents (addAll records m₀).2 j ∧ ∀ slot, j.crumbs slot = addedTo slot records := by
  obtain ⟨hstatus, hrep⟩ := runCalls_represents hm.represents (records.map .addBreadcrumb)
  refine ⟨_, hrep, fun slot => ?_⟩
  rw [(Journal.collects_crumbs slot).runCalls, ← hstatus,
    acceptedOf_eq_self (runCalls_statuses_length _ _) haccepted, filterMap_crumbFor]
  rfl

theorem allAccepted_of_journal (hm : FreshMapping m₀) (h : ∀ status ∈ (Journal.empty.runCalls
      (records.map .addBreadcrumb)).1, status = 0) : AllAccepted records m₀ := by
  rw [AllAccepted, addAll, (runCalls_represents hm.represents _).1]
  exact h

/-- A record without texts. -/
def plainRecord (slot : UInt32) (timestampNs : UInt64) (line : UInt16) : BreadcrumbArgs where
  threadSlot := slot
  threadId := 7
  timestampNs
  category := 1
  severity := 0
  file := none
  line
  message := none

/-! ## Every record once -/

/-- The breadcrumb has the fields of the record and the texts as far as they
fit. -/
structure RawBreadcrumb.Of (raw : RawBreadcrumb) (args : BreadcrumbArgs) : Prop where
  timestampNs : raw.timestampNs = args.timestampNs.toNat
  threadId : raw.threadId = args.threadId.toNat
  category : raw.category = args.category.toNat
  severity : raw.severity = args.severity.toNat
  file : CutTo breadcrumbFileLen args.file raw.file
  line : raw.line = args.line.toNat
  message : CutTo breadcrumbMessageLen args.message raw.message

theorem of_shownCrumb {args raw} (h : shownCrumb args = some raw) : raw.Of args := by
  obtain ⟨-, hfile, hmessage, hraw⟩ := shownCrumb_eq_some_iff.mp h
  rw [hraw]
  exact ⟨rfl, rfl, rfl, rfl, (shownText_eq_some_iff.mp hfile).1, rfl,
    (shownText_eq_some_iff.mp hmessage).1⟩

/-- Below the wrap of the counter the reader sees the newest records. -/
theorem retained_of_lt {log} (h : log.length < 2 ^ 32) :
    retained log = log.rtake crumbRingCapacity := by
  have hdrop : log.length - min log.length crumbRingCapacity =
      log.length - crumbRingCapacity := by omega
  rw [retained, Nat.mod_eq_of_lt h, List.rtake, List.rtake, hdrop]

open RawBreadcrumb

/-- **Round trip.** After accepted additions in any order over the slots, a
snapshot that shows the breadcrumbs yields the newest records of every slot,
each once and nothing else, sorted by timestamp. -/
theorem read_breadcrumbs_round_trip (hm : FreshMapping m₀) (haccepted : AllAccepted records m₀)
    (hcount : ∀ slot, (addedTo slot records).length < 2 ^ 32)
    (htimestamp : ∀ args ∈ records, args.timestampNs ≠ 0)
    (hfile : ∀ args ∈ records, Legible breadcrumbFileLen args.file)
    (hmessage : ∀ args ∈ records, Legible breadcrumbMessageLen args.message)
    (hL : L.Suspended (addAll records m₀).2) (hallows : policy.breadcrumbs = true) :
    (∃ snapshot, L.snapshotOwnedUntilWithPolicy none policy = .ok snapshot) ∧
      ∀ deadline snapshot, L.snapshotOwnedUntilWithPolicy deadline policy = .ok snapshot →
        SortedByKey timestampNs snapshot.readBreadcrumbs ∧
        ∃ shown, snapshot.readBreadcrumbs.Perm shown ∧ List.Forall₂ Of shown
            ((List.finRange 8).flatMap fun slot =>
              (addedTo slot records).rtake crumbRingCapacity) := by
  obtain ⟨j, hrep, hcrumbs⟩ := addAll_represents hm haccepted
  obtain ⟨hexists, hmirrors⟩ := hrep.snapshots hL policy
  refine ⟨hexists, fun deadline snapshot hok => ⟨readBreadcrumbs_sorted, _,
    readBreadcrumbs_perm (hmirrors deadline snapshot hok) hallows hrep, ?_⟩⟩
  have hretained : (fun slot => retained (j.crumbs slot)) = fun slot =>
      (addedTo slot records).rtake crumbRingCapacity :=
    funext fun slot => by rw [hcrumbs slot, retained_of_lt (hcount slot)]
  rw [hretained, forall₂_filterMap_iff fun args _ raw => of_shownCrumb]
  intro args hargs
  obtain ⟨slot, -, hmem⟩ := mem_flatMap.mp hargs
  have hrecord : args ∈ records := mem_of_mem_filter (mem_of_mem_drop hmem)
  exact shownCrumb_isSome_iff.mpr ⟨htimestamp args hrecord,
    legible_iff.mp (hfile args hrecord), legible_iff.mp (hmessage args hrecord)⟩

/-- Two slots, the later one first. -/
theorem read_breadcrumbs_round_trip_two_slots :
    (∃ snapshot, (heldMapping (addAll [plainRecord 3 20 1, plainRecord 0 10 2]
      createdMapping).2).snapshotOwnedUntilWithPolicy none .all =
        .ok snapshot) ∧ ∀ deadline snapshot, (heldMapping (addAll [plainRecord 3 20 1,
      plainRecord 0 10 2] createdMapping).2).snapshotOwnedUntilWithPolicy
        deadline .all = .ok snapshot →
      SortedByKey timestampNs snapshot.readBreadcrumbs ∧
      ∃ shown, snapshot.readBreadcrumbs.Perm shown ∧
        List.Forall₂ Of shown ((List.finRange 8).flatMap
          fun slot => (addedTo slot [plainRecord 3 20 1,
            plainRecord 0 10 2]).rtake crumbRingCapacity) :=
  read_breadcrumbs_round_trip createdMapping_fresh
    (allAccepted_of_journal createdMapping_fresh (by decide)) (by decide) (by decide)
    (fun args hargs => by
      simp only [mem_cons, not_mem_nil, or_false] at hargs
      rcases hargs with rfl | rfl <;> exact ⟨"", legible_null _⟩)
    (fun args hargs => by
      simp only [mem_cons, not_mem_nil, or_false] at hargs
      rcases hargs with rfl | rfl <;> exact ⟨"", legible_null _⟩)
    (heldMapping_suspended _) rfl

/-! ## Order within a slot -/

/-- The breadcrumbs of a slot that the reader returns, in the order in which
their records were added. -/
def inOrderAdded (records : List BreadcrumbArgs) : List RawBreadcrumb :=
  (retained records).filterMap shownCrumb

theorem addedTo_self {slot : Fin 8} (h : ∀ args ∈ records, args.threadSlot.toNat = slot) :
    addedTo slot records = records := by
  rw [addedTo, filter_eq_self]
  intro args hargs
  exact decide_eq_true (h args hargs)

theorem addedTo_other {slot other : Fin 8} (hne : other ≠ slot)
    (h : ∀ args ∈ records, args.threadSlot.toNat = slot) : addedTo other records = [] := by
  rw [addedTo, filter_eq_nil_iff]
  intro args hargs heq
  rw [decide_eq_true_eq, h args hargs] at heq
  exact hne (Fin.ext heq.symm)

/-- Only one slot contributes. -/
theorem flatMap_slot {slot} {shown : List RawBreadcrumb} :
    ((List.finRange 8).flatMap fun i => if i = slot then shown else []) = shown := by
  have hsplit : ∀ slot : Fin 8, .finRange 8 = (List.finRange 8).take slot ++
      slot :: (List.finRange 8).drop (slot + 1) := by decide
  have hothers : ∀ slot : Fin 8, ∀ i ∈ (List.finRange 8).take slot ++
      (List.finRange 8).drop (slot + 1), i ≠ slot := by decide
  have hnil : ∀ slots : List (Fin 8), (∀ i ∈ slots, i ≠ slot) →
      (slots.flatMap fun i => if i = slot then shown else []) = [] := by
    intro slots hslots
    rw [flatMap_eq_nil_iff]
    exact fun i hi => if_neg (hslots i hi)
  rw [hsplit slot, flatMap_append, flatMap_cons, if_pos rfl,
    hnil _ fun i hi => hothers slot i (mem_append_left _ hi),
    hnil _ fun i hi => hothers slot i (mem_append_right _ hi)]
  simp

/-- With one slot in use the reader sorts that ring's walk, newest first. -/
theorem readBreadcrumbs_of_slot (slot : Fin 8) (hm : FreshMapping m₀)
    (hslot : ∀ args ∈ records, args.threadSlot.toNat = slot) (haccepted : AllAccepted records m₀)
    (hL : L.Suspended (addAll records m₀).2) (hallows : policy.breadcrumbs = true)
    {deadline : Option Nat} (hok : L.snapshotOwnedUntilWithPolicy deadline policy = .ok snapshot) :
    snapshot.readBreadcrumbs = sortByKey timestampNs (inOrderAdded records).reverse := by
  obtain ⟨j, hrep, hcrumbs⟩ := addAll_represents hm haccepted
  have hmirrors := (hrep.snapshots hL policy).2 deadline snapshot hok
  rw [readBreadcrumbs_eq hmirrors hallows hrep]
  congr 1
  have hring : ∀ i, (retained (j.crumbs i)).reverse.filterMap shownCrumb =
      if i = slot then (inOrderAdded records).reverse else [] := by
    intro i
    rw [hcrumbs i]
    split
    · next heq => rw [heq, addedTo_self hslot, inOrderAdded, filterMap_reverse]
    next hne =>
    rw [addedTo_other hne hslot]
    rfl
  simp only [hring]
  exact flatMap_slot

theorem timestampNs_of_shownCrumb {args raw}
    (h : shownCrumb args = some raw) : raw.timestampNs = args.timestampNs.toNat := by
  rw [(shownCrumb_eq_some_iff.mp h).2.2.2]

theorem inOrderAdded_sorted (h : records.Pairwise fun x y => x.timestampNs ≤ y.timestampNs) :
    SortedByKey timestampNs (inOrderAdded records) := by
  refine .filterMap shownCrumb ?_ (h.sublist (drop_sublist _ _))
  intro x y hxy raw hraw raw' hraw'
  rw [timestampNs_of_shownCrumb hraw, timestampNs_of_shownCrumb hraw']
  exact UInt64.le_iff_toNat_le.mp hxy

/-- **Order within a slot.** With nondecreasing timestamps the reader returns
the records in the order in which they were added exactly if reversing the
ties makes no difference. -/
theorem read_breadcrumbs_in_order_iff (slot : Fin 8) (hm : FreshMapping m₀)
    (hslot : ∀ args ∈ records, args.threadSlot.toNat = slot) (haccepted : AllAccepted records m₀)
    (hsorted : records.Pairwise fun x y => x.timestampNs ≤ y.timestampNs)
    (hL : L.Suspended (addAll records m₀).2) (hallows : policy.breadcrumbs = true)
    {deadline : Option Nat} (hok : L.snapshotOwnedUntilWithPolicy deadline policy = .ok snapshot) :
    snapshot.readBreadcrumbs.Perm (inOrderAdded records) ∧
      (snapshot.readBreadcrumbs = inOrderAdded records ↔
        ∀ t, ((inOrderAdded records).filter (·.timestampNs = t)).reverse =
          (inOrderAdded records).filter (·.timestampNs = t)) := by
  rw [readBreadcrumbs_of_slot slot hm hslot haccepted hL hallows hok]
  refine ⟨sortByKey_perm.trans (reverse_perm _), ?_⟩
  exact sortByKey_reverse_eq_iff (inOrderAdded_sorted hsorted)

/-- The breadcrumb of a record without texts. -/
def plainBreadcrumb (timestampNs line : Nat) : RawBreadcrumb where
  timestampNs
  threadId := 7
  category := 1
  severity := 0
  file := ""
  line
  message := ""

/-- Two records of one slot with one timestamp. -/
def tiedRecords : List BreadcrumbArgs := [plainRecord 0 5 1, plainRecord 0 5 2]

theorem tiedRecords_accepted : AllAccepted tiedRecords createdMapping :=
  allAccepted_of_journal createdMapping_fresh (by decide)

theorem inOrderAdded_tiedRecords :
    inOrderAdded tiedRecords = [plainBreadcrumb 5 1, plainBreadcrumb 5 2] := by
  have htext : ∀ size, shownText size none = some "" := fun size =>
    shownText_eq_some_iff.mpr (legible_null size)
  have hretained : retained tiedRecords = tiedRecords := by decide
  rw [inOrderAdded, hretained, tiedRecords]
  simp [shownCrumb, shownRecord, plainRecord, htext, plainBreadcrumb, Option.filter]

/-- The two come out in reverse. -/
theorem tied_breadcrumbs_reversed :
    (∀ args ∈ tiedRecords, args.threadSlot.toNat = (0 : Fin 8)) ∧
    AllAccepted tiedRecords createdMapping ∧
    (tiedRecords.Pairwise fun x y => x.timestampNs ≤ y.timestampNs) ∧
    inOrderAdded tiedRecords = [plainBreadcrumb 5 1, plainBreadcrumb 5 2] ∧
    ∃ snapshot, (heldMapping (addAll tiedRecords
      createdMapping).2).snapshotOwnedUntilWithPolicy none .all =
        .ok snapshot ∧ snapshot.readBreadcrumbs = [plainBreadcrumb 5 2, plainBreadcrumb 5 1] := by
  refine ⟨by decide, tiedRecords_accepted, by decide, inOrderAdded_tiedRecords, ?_⟩
  obtain ⟨j, hrep, -⟩ := addAll_represents createdMapping_fresh tiedRecords_accepted
  obtain ⟨snapshot, hok⟩ := (hrep.snapshots (heldMapping_suspended _) .all).1
  refine ⟨snapshot, hok, ?_⟩
  rw [readBreadcrumbs_of_slot 0 createdMapping_fresh (by decide)
    tiedRecords_accepted (heldMapping_suspended _) rfl hok, inOrderAdded_tiedRecords]
  exact sortByKey_of_sorted (by simp [SortedByKey, plainBreadcrumb])

theorem read_breadcrumbs_in_order_iff_tied : ∃ snapshot, (heldMapping (addAll tiedRecords
      createdMapping).2).snapshotOwnedUntilWithPolicy none .all =
        .ok snapshot ∧
    snapshot.readBreadcrumbs.Perm (inOrderAdded tiedRecords) ∧
      (snapshot.readBreadcrumbs = inOrderAdded tiedRecords ↔
        ∀ t, ((inOrderAdded tiedRecords).filter (·.timestampNs = t)).reverse =
          (inOrderAdded tiedRecords).filter (·.timestampNs = t)) := by
  obtain ⟨j, hrep, -⟩ := addAll_represents createdMapping_fresh tiedRecords_accepted
  obtain ⟨snapshot, hok⟩ := (hrep.snapshots (heldMapping_suspended _) .all).1
  exact ⟨snapshot, hok, read_breadcrumbs_in_order_iff 0 createdMapping_fresh
    (by decide) tiedRecords_accepted (by decide) (heldMapping_suspended _) rfl hok⟩

end CrashMonitor.Shm
