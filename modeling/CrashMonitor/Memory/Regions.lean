import CrashMonitor.Lib.MachineInt
import Mathlib.Data.List.Pairwise

/-!
# Enumeration of the VM regions

`VmEnumerationState` (`platform/macos/memory.rs`) and `enumerate_vm_regions`
(`platform/macos/ffi/memory.rs`) walk the address space of the target with one
kernel query after the other. Whatever the kernel answers, the walk ends and
goes upwards; if it answers from a map of regions, the walk lists that map.
-/

namespace CrashMonitor.Memory

open MachineInt List

def maxVmRegions : Nat := 2000
def maxVmRegionQueryAttempts : Nat := maxVmRegions * 4
def maxConsecutiveVmRegionFailures : Nat := 64
def kernInvalidAddress : Int := 1

inductive VmRegionEnumerationQuality where
  | complete
  | regionLimit
  | queryAttemptLimit
  | consecutiveErrorLimit
  | skippedQueryErrors (count : Nat)
  | noAddressProgress
  | addressOverflow
  | captureDeadline
  deriving DecidableEq

inductive VmEnumAction where
  | addRegion
  | addTerminalRegion (quality : VmRegionEnumerationQuality)
  | done (quality : VmRegionEnumerationQuality)
  | skipPage
  | stop (quality : VmRegionEnumerationQuality)

structure VmRegionInfo where
  address : Nat
  size : Nat

/-- The first address behind the region. -/
def VmRegionInfo.stop (region : VmRegionInfo) : Nat := region.address + region.size

structure VmEnumerationState where
  address : Nat
  queryAttempts : Nat
  consecutiveFailures : Nat
  totalQueryFailures : Nat
  regionCount : Nat
  pageSize : Nat

/-! ## The loop -/

section Loop

variable (state : VmEnumerationState)

def VmEnumerationState.preQueryStop : Option VmRegionEnumerationQuality :=
  if maxVmRegions ≤ state.regionCount then some .regionLimit
  else if maxVmRegionQueryAttempts ≤ state.queryAttempts then some .queryAttemptLimit
  else none

/-- `process_query`. A sum that overflows is handled as the largest word is. -/
def VmEnumerationState.processQuery (reply : Except Int VmRegionInfo) :
    VmEnumAction × VmEnumerationState :=
  let state := { state with queryAttempts := state.queryAttempts + 1 }
  match reply with
  | .ok region =>
    let state := { state with consecutiveFailures := 0 }
    if u64Max ≤ region.stop then (.addTerminalRegion .addressOverflow,
      { state with address := u64Max, regionCount := state.regionCount + 1 })
    else if region.stop ≤ state.address then (.stop .noAddressProgress, state)
    else (.addRegion,
      { state with address := region.stop, regionCount := state.regionCount + 1 })
  | .error code =>
    if code = kernInvalidAddress then
      (.done (if state.totalQueryFailures = 0 then .complete
        else .skippedQueryErrors state.totalQueryFailures), state)
    else
      let state := { state with
        consecutiveFailures := state.consecutiveFailures + 1
        totalQueryFailures := state.totalQueryFailures + 1 }
      let next := state.address + state.pageSize
      if maxConsecutiveVmRegionFailures ≤ state.consecutiveFailures then
        (.stop .consecutiveErrorLimit, state)
      else if u64Max ≤ next then (.stop .addressOverflow, { state with address := u64Max })
      else if next ≤ state.address then (.stop .noAddressProgress, state)
      else (.skipPage, { state with address := next })

/-- What a run returns, and the queries it made. -/
structure Enumeration where
  regions : List VmRegionInfo
  quality : VmRegionEnumerationQuality
  queries : Nat

-- the answer to query `n` at an address, and whether a checkpoint fails
variable (kernel : Nat → Nat → Except Int VmRegionInfo) (expired : Nat → Bool)

/-- The loop of `enumerate_vm_regions`; a round has two checkpoints. -/
def enumerateFrom : (fuel : Nat) → VmEnumerationState → List VmRegionInfo → Option Enumeration
  | 0, _, _ => none
  | fuel + 1, state, regions =>
    let n := state.queryAttempts
    if expired (2 * n) then some ⟨regions, .captureDeadline, n⟩
    else match state.preQueryStop with
      | some quality => some ⟨regions, quality, n⟩
      | none =>
        let reply := kernel n state.address
        let found := regions ++ reply.toOption.toList
        match state.processQuery reply with
        | (.addRegion, next) =>
          if expired (2 * n + 1) then some ⟨found, .captureDeadline, n + 1⟩
          else enumerateFrom fuel next found
        | (.addTerminalRegion quality, _) => some ⟨found, quality, n + 1⟩
        | (.done quality, _) => some ⟨regions, quality, n + 1⟩
        | (.skipPage, next) =>
          if expired (2 * n + 1) then some ⟨regions, .captureDeadline, n + 1⟩
          else enumerateFrom fuel next regions
        | (.stop quality, _) => some ⟨regions, quality, n + 1⟩

/-- `enumerate_vm_regions`, with a round more than there are queries. -/
def enumerateVmRegions (pageSize : Nat) : Option Enumeration :=
  enumerateFrom kernel expired (maxVmRegionQueryAttempts + 1) ⟨0, 0, 0, 0, 0, pageSize⟩ []

end Loop

variable {kernel : Nat → Nat → Except Int VmRegionInfo} {expired : Nat → Bool} {fuel : Nat}
  {state : VmEnumerationState} {regions : List VmRegionInfo} {region : VmRegionInfo}

/-- What a query does to the walk. -/
structure Moves (state next : VmEnumerationState) (reply : Except Int VmRegionInfo)
    (action : VmEnumAction) : Prop where
  queries : next.queryAttempts = state.queryAttempts + 1
  adds : action = .addRegion → ∃ region, reply = .ok region ∧ state.address < region.stop ∧
    region.stop < u64Max ∧ next.address = region.stop ∧ next.regionCount = state.regionCount + 1
  skips : action = .skipPage → state.address < next.address ∧ next.regionCount = state.regionCount
  overflows : ∀ quality, action = .addTerminalRegion quality →
    ∃ region, reply = .ok region ∧ u64Max ≤ region.stop

open VmEnumerationState

theorem moves_of_processQuery {reply action next} (h : state.processQuery reply = (action, next)) :
    Moves state next reply action := by
  cases reply with
  | ok region | error code =>
    simp only [processQuery] at h
    repeat' split at h
    all_goals cases h
    all_goals constructor <;> grind

/-! ## Any kernel -/

/-- The ends increase. -/
def Upwards (regions : List VmRegionInfo) : Prop := (regions.map (·.stop)).Pairwise (· < ·)

theorem Upwards.concat (h : Upwards regions) (hlast : ∀ r ∈ regions, r.stop < region.stop) :
    Upwards (regions ++ [region]) := by
  rw [Upwards, map_append, pairwise_append]
  exact ⟨h, pairwise_singleton .., by simpa using hlast⟩

/-- Few queries and regions, and the ends increase, except that the last
region may overflow. -/
structure Enumeration.Sound (e : Enumeration) : Prop where
  queries : e.queries ≤ maxVmRegionQueryAttempts
  regions : e.regions.length ≤ maxVmRegions
  upwards : Upwards e.regions ∨
    ∃ front last, e.regions = front ++ [last] ∧ u64Max < last.stop ∧ Upwards front

/-- The walk so far. -/
structure Walked (state : VmEnumerationState) (regions : List VmRegionInfo) : Prop where
  queries : state.queryAttempts ≤ maxVmRegionQueryAttempts
  count : state.regionCount = regions.length
  most : regions.length ≤ maxVmRegions
  upwards : Upwards regions
  below : ∀ r ∈ regions, r.stop ≤ state.address ∧ r.stop < u64Max

theorem enumerateFrom_sound (h : Walked state regions)
    (hfuel : maxVmRegionQueryAttempts < fuel + state.queryAttempts) :
    ∃ e, enumerateFrom kernel expired fuel state regions = some e ∧ e.Sound := by
  induction fuel generalizing state regions with
  | zero => exact absurd h.queries (by omega)
  | succ fuel ih =>
    simp only [enumerateFrom]
    split
    · exact ⟨_, rfl, h.queries, h.most, .inl h.upwards⟩
    split
    · exact ⟨_, rfl, h.queries, h.most, .inl h.upwards⟩
    next hnone =>
    obtain ⟨hroom, hmore⟩ : regions.length < maxVmRegions ∧
        state.queryAttempts < maxVmRegionQueryAttempts := by
      rw [preQueryStop, h.count] at hnone
      grind
    generalize kernel state.queryAttempts state.address = reply
    rcases hquery : state.processQuery reply with ⟨action, next⟩
    have hmoves := moves_of_processQuery hquery
    have hfuel' : maxVmRegionQueryAttempts < fuel + next.queryAttempts := by
      rw [hmoves.queries]
      omega
    have hqueries : next.queryAttempts ≤ maxVmRegionQueryAttempts := hmoves.queries ▸ hmore
    cases action with
    | done quality | stop quality => exact ⟨_, rfl, hmore, h.most, .inl h.upwards⟩
    | skipPage =>
      obtain ⟨hup, hcount⟩ := hmoves.skips rfl
      dsimp only
      split
      · exact ⟨_, rfl, hmore, h.most, .inl h.upwards⟩
      refine ih ⟨hqueries, hcount.trans h.count, h.most, h.upwards, fun r hr => ?_⟩ hfuel'
      have := h.below r hr
      omega
    | addRegion =>
      obtain ⟨region, rfl, hup, htop, haddress, hcount⟩ := hmoves.adds rfl
      have hmost : (regions ++ [region]).length ≤ maxVmRegions := by
        simpa using Nat.succ_le_of_lt hroom
      have hupwards : Upwards (regions ++ [region]) :=
        h.upwards.concat fun r hr => Nat.lt_of_le_of_lt (h.below r hr).1 hup
      dsimp only [Except.toOption, Option.toList]
      split
      · exact ⟨_, rfl, hmore, hmost, .inl hupwards⟩
      refine ih ⟨hqueries, by simp [hcount, h.count], hmost, hupwards, fun r hr => ?_⟩ hfuel'
      rcases mem_append.mp hr with hr | hr
      · have := h.below r hr
        omega
      · rw [mem_singleton.mp hr]
        omega
    | addTerminalRegion quality =>
      obtain ⟨region, rfl, htop⟩ := hmoves.overflows quality rfl
      refine ⟨_, rfl, hmore, by simpa [Except.toOption] using Nat.succ_le_of_lt hroom, ?_⟩
      rcases Nat.lt_or_eq_of_le htop with hover | heq
      · exact .inr ⟨regions, region, rfl, hover, h.upwards⟩
      · exact .inl (h.upwards.concat fun r hr => heq ▸ (h.below r hr).2)

/-! ## A map of regions -/

/-- Regions from the lowest to the highest. -/
structure AddressSpace where
  regions : List VmRegionInfo
  sorted : regions.Pairwise fun a b => a.stop ≤ b.address
  nonempty : ∀ r ∈ regions, 0 < r.size
  bounded : ∀ r ∈ regions, r.stop < u64Max

/-- The first region that ends after the address. -/
def AddressSpace.reply (space : AddressSpace) (address : Nat) : Except Int VmRegionInfo :=
  match space.regions.find? (address < ·.stop) with
  | some region => .ok region
  | none => .error kernInvalidAddress

/-- The regions of the space, up to the limit. -/
structure Enumeration.Covers (e : Enumeration) (space : AddressSpace) : Prop where
  regions : e.regions = space.regions.take maxVmRegions
  quality : e.quality = .complete ↔ space.regions.length < maxVmRegions

/-- The walk has listed the regions up to its address. -/
structure Lists (space : AddressSpace) (state : VmEnumerationState)
    (listed rest : List VmRegionInfo) : Prop where
  split : space.regions = listed ++ rest
  behind : ∀ r ∈ listed, r.stop ≤ state.address
  ahead : ∀ r ∈ rest, state.address < r.stop
  queries : state.queryAttempts = listed.length
  count : state.regionCount = listed.length
  failures : state.totalQueryFailures = 0
  most : listed.length ≤ maxVmRegions

variable {space : AddressSpace} {listed rest : List VmRegionInfo}

theorem Lists.reply_eq (h : Lists space state listed rest) : space.reply state.address =
      match rest.head? with
      | some region => .ok region
      | none => .error kernInvalidAddress := by
  have hlisted : listed.find? (state.address < ·.stop) = none := by simpa using h.behind
  rw [AddressSpace.reply, h.split, find?_append, hlisted]
  cases rest with
  | nil => rfl
  | cons region rest => simp [h.ahead]

theorem enumerateFrom_lists (h : Lists space state listed rest)
    (hfuel : maxVmRegions < fuel + listed.length) :
    ∃ e, enumerateFrom (fun _ => space.reply) (fun _ => false) fuel state listed = some e ∧
      e.Covers space := by
  induction fuel generalizing state listed rest with
  | zero => exact absurd h.most (by omega)
  | succ fuel ih =>
    have hsplit := h.split
    simp only [enumerateFrom, h.reply_eq, Bool.false_eq_true, if_false]
    rcases Nat.lt_or_eq_of_le h.most with hroom | hfull
    · have hnone : state.preQueryStop = none := by
        rw [preQueryStop, h.count, h.queries, if_neg (by omega), if_neg]
        simp only [maxVmRegionQueryAttempts]
        omega
      rw [hnone]
      cases rest with
      | nil =>
        rw [append_nil] at hsplit
        refine ⟨_, by simp [processQuery, h.failures]; rfl, ?_, ?_⟩
        · rw [hsplit, take_of_length_le h.most]
        · simpa [hsplit] using hroom
      | cons region rest =>
        have hahead := h.ahead region mem_cons_self
        have hmem : ∀ r ∈ region :: rest, r ∈ space.regions := by
          intro r hr
          rw [hsplit]
          exact mem_append_right _ hr
        have hbounded := space.bounded region (hmem region mem_cons_self)
        have hsorted := space.sorted
        rw [hsplit, pairwise_append, pairwise_cons] at hsorted
        simp only [head?_cons, processQuery, if_neg (Nat.not_le.mpr hbounded),
          if_neg (Nat.not_le.mpr hahead), Except.toOption, Option.toList]
        have hmost : (listed ++ [region]).length ≤ maxVmRegions := by
          simpa using Nat.succ_le_of_lt hroom
        refine ih ⟨hsplit.trans (append_cons ..), fun r hr => ?_, fun r hr => ?_,
          by simp [h.queries], by simp [h.count], h.failures, hmost⟩ (by simp; omega)
        · rcases mem_append.mp hr with hr | hr
          · exact Nat.le_of_lt (Nat.lt_of_le_of_lt (h.behind r hr) hahead)
          · rw [mem_singleton.mp hr]
        · have hstart := hsorted.2.1.1 r hr
          have hsize := space.nonempty r (hmem r (mem_cons_of_mem _ hr))
          exact Nat.lt_of_le_of_lt hstart (Nat.lt_add_of_pos_right hsize)
    · have hstop : state.preQueryStop = some .regionLimit := by
        rw [preQueryStop, h.count, if_pos (Nat.le_of_eq hfull.symm)]
      rw [hstop]
      refine ⟨_, rfl, ?_, by simp [hsplit, hfull]⟩
      rw [hsplit, ← hfull, take_left]

/-- **Enumeration.** Whatever the kernel answers and the checkpoints say, a run
ends and is sound. If the kernel answers from an address space and no deadline
expires, the run lists it, up to the limit. -/
theorem vm_region_enumeration (pageSize : Nat) :
    (∀ kernel expired, ∃ e, enumerateVmRegions kernel expired pageSize = some e ∧ e.Sound) ∧
    ∀ space : AddressSpace, ∃ e,
      enumerateVmRegions (fun _ => space.reply) (fun _ => false) pageSize = some e ∧
      e.Covers space := by
  constructor
  · intro kernel expired
    exact enumerateFrom_sound ⟨Nat.zero_le _, rfl, Nat.zero_le _, .nil, by simp⟩ (by simp)
  intro space
  refine enumerateFrom_lists ⟨rfl, by simp, fun r hr => ?_, rfl, rfl, rfl, Nat.zero_le _⟩
    (by decide)
  exact Nat.lt_of_lt_of_le (space.nonempty r hr) (Nat.le_add_left ..)

/-- A space with a gap. -/
def twoRegions : AddressSpace where
  regions := [⟨0x1000, 0x1000⟩, ⟨0x4000, 0x2000⟩]
  sorted := by decide
  nonempty := by decide
  bounded := by decide

theorem two_regions_enumerated : ∃ e,
    enumerateVmRegions (fun _ => twoRegions.reply) (fun _ => false) 4096 = some e ∧
      e.regions = twoRegions.regions ∧ e.quality = .complete := by
  obtain ⟨e, he, hcovers⟩ := (vm_region_enumeration 4096).2 twoRegions
  exact ⟨e, he, hcovers.regions, hcovers.quality.mpr (by decide)⟩

end CrashMonitor.Memory
