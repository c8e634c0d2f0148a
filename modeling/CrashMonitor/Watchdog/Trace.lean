import CrashMonitor.Watchdog.State

/-!
# Watchdog — whole runs

What the watchdog reports, said about the HISTORY of observations and not
about its state variables. A history is the list of past calls, newest
first, each with what the watchdog answered. From it alone we read off

* `observed`: the last heartbeat seen;
* `warmupFed`: application time fed since the heartbeat that armed the
  watchdog;
* `cooldownFed`: the same sum since the last fired tick;
* `hangMs`: the time of the counted ticks since anything last reset the
  hang.

`Tracks` links these to the five state variables; one step preserves it,
so it holds along every run, and the answer to a tick is a function of the
history.
-/

namespace CrashMonitor.Watchdog

open MachineInt

/-- A call into the watchdog: a periodic check, or the sampling that follows
monitor-owned work. -/
inductive Call where
  | tick (heartbeat : Option Nat) (elapsedMs : Nat)
  | rebase (heartbeat : Option Nat) (elapsedBeforeMonitorMs : Nat)
  deriving DecidableEq, Repr

def Call.heartbeat : Call → Option Nat
  | .tick heartbeat _ => heartbeat
  | .rebase heartbeat _ => heartbeat

/-- A past call and the hang duration the watchdog reported for it. -/
structure Entry where
  call : Call
  reported : Option Nat
  deriving DecidableEq, Repr

/-- The three configured durations and the heartbeat at the start. -/
structure Setup where
  warmupMs : Nat
  thresholdMs : Nat
  cooldownMs : Nat
  initialHeartbeat : Option Nat
  deriving DecidableEq, Repr

namespace Setup

variable (cfg : Setup)
variable {call : Call} {current previous : Nat}

/-- One call. -/
def answer (state : WatchdogState) : Call → Option Nat × WatchdogState
  | .tick heartbeat elapsedMs =>
    updateWatchdogState state heartbeat elapsedMs cfg.thresholdMs cfg.cooldownMs
  | .rebase heartbeat elapsedMs => (none, (state.rebaseAfterMonitorWork heartbeat elapsedMs).2)

/-- The state and the history, newest entry first, after a list of calls
(also newest first). -/
def run : List Call → WatchdogState × List Entry
  | [] => (.new cfg.warmupMs cfg.initialHeartbeat, [])
  | call :: earlier =>
    let (state, past) := run earlier
    let (reported, next) := cfg.answer state call
    (next, ⟨call, reported⟩ :: past)

/-! ## Reading a history -/

/-- The heartbeat of the latest observation. -/
def observed : List Entry → Option Nat
  | [] => cfg.initialHeartbeat
  | entry :: _ => entry.call.heartbeat

/-- Application time a call feeds to the grace budgets, given the heartbeat
observed before it: all of a tick, and the time before monitor work when
the heartbeat changed meanwhile. Nothing is fed before a first heartbeat. -/
def fed (previous : Option Nat) : Call → Nat
  | .tick heartbeat elapsedMs =>
    if heartbeat.isSome ∧ previous.isSome then elapsedMs else 0
  | .rebase heartbeat elapsedMs =>
    if heartbeat.isSome ∧ previous.isSome ∧ heartbeat ≠ previous
    then elapsedMs else 0

/-- Time fed since the first heartbeat observed after the last missing
one. -/
def warmupFed : List Entry → Nat
  | [] => 0
  | entry :: past =>
    if entry.call.heartbeat = none ∨ cfg.observed past = none then 0
    else warmupFed past + fed (cfg.observed past) entry.call

/-- Warmup is pending after `past`. -/
def WarmupPending (past : List Entry) : Prop := cfg.warmupFed past < cfg.warmupMs

/-- Time fed since the last fired tick, unless a heartbeat was missing since
then (or no tick fired). -/
def cooldownFed : List Entry → Option Nat
  | [] => none
  | entry :: past =>
    if entry.reported.isSome then some 0
    else if entry.call.heartbeat = none then none
    else (cooldownFed past).map (· + fed (cfg.observed past) entry.call)

/-- Cooldown is pending after `past`. -/
def CooldownPending (past : List Entry) : Prop :=
  ∃ sum, cfg.cooldownFed past = some sum ∧ sum < cfg.cooldownMs

instance (past : List Entry) : Decidable (cfg.WarmupPending past) :=
  inferInstanceAs (Decidable (_ < _))

instance (past : List Entry) : Decidable (cfg.CooldownPending past) :=
  match h : cfg.cooldownFed past with
  | none => isFalse (by simp [CooldownPending, h])
  | some sum => decidable_of_iff (sum < cfg.cooldownMs) (by simp [CooldownPending, h])

/-- A tick is counted after `past` when it sees the same heartbeat as the
observation before it and neither grace is pending. -/
def Counted (past : List Entry) (heartbeat : Option Nat) : Prop :=
  heartbeat.isSome ∧ heartbeat = cfg.observed past ∧
    ¬ cfg.WarmupPending past ∧ ¬ cfg.CooldownPending past

instance (past : List Entry) (heartbeat : Option Nat) : Decidable (cfg.Counted past heartbeat) :=
  inferInstanceAs (Decidable (_ ∧ _ ∧ _ ∧ _))

/-- Elapsed time of the counted ticks since the last heartbeat change,
missing heartbeat, grace tick or fire. -/
def hangMs : List Entry → Nat
  | [] => 0
  | ⟨.tick heartbeat elapsedMs, reported⟩ :: past =>
    if cfg.Counted past heartbeat ∧ reported = none
    then hangMs past + elapsedMs else 0
  | ⟨.rebase heartbeat _, _⟩ :: past =>
    if heartbeat.isSome ∧ heartbeat = cfg.observed past
    then hangMs past else 0

/-- The sum `d` for a tick about to be answered. -/
def stalledMs (past : List Entry) (elapsedMs : Nat) : Nat := cfg.hangMs past + elapsedMs

/-! ## The state tracks the history -/

/-- What is left of the cooldown. -/
def cooldownLeft (past : List Entry) : Nat := (cfg.cooldownFed past).elim 0 (cfg.cooldownMs - ·)

theorem warmupPending_iff {past} :
    cfg.WarmupPending past ↔ 0 < cfg.warmupMs - cfg.warmupFed past := by
  unfold WarmupPending
  omega

theorem cooldownPending_iff (past : List Entry) :
    cfg.CooldownPending past ↔ 0 < cfg.cooldownLeft past := by
  unfold CooldownPending cooldownLeft
  cases cfg.cooldownFed past with
  | none => simp
  | some sum =>
    constructor
    · rintro ⟨_, ⟨⟩, hlt⟩
      exact Nat.sub_pos_of_lt hlt
    · intro hpos
      exact ⟨sum, rfl, Nat.lt_of_sub_pos hpos⟩

/-- The state variables are functions of the history. The last two fields
are about the history alone: a disarmed watchdog has no cooldown and no
hang, and warmup is only ever pending before the first fire. -/
structure Tracks (state : WatchdogState) (past : List Entry) : Prop where
  initial : state.initialWarmupMs = cfg.warmupMs
  prev : state.prevHeartbeat = cfg.observed past
  warmup : state.warmupRemainingMs = cfg.warmupMs - cfg.warmupFed past
  hang : state.hangAccumulatedMs = min (cfg.hangMs past) u64Max
  cooldown : state.cooldownRemainingMs = cfg.cooldownLeft past
  unarmed : cfg.observed past = none →
    cfg.warmupFed past = 0 ∧ cfg.cooldownFed past = none ∧ cfg.hangMs past = 0
  warming : cfg.WarmupPending past → cfg.cooldownFed past = none

theorem tracks_new : cfg.Tracks (.new cfg.warmupMs cfg.initialHeartbeat) [] where
  initial := rfl
  prev := rfl
  warmup := rfl
  hang := rfl
  cooldown := rfl
  unarmed := fun _ => ⟨rfl, rfl, rfl⟩
  warming := fun _ => rfl

variable {cfg} {state : WatchdogState} {past : List Entry}

section

variable (h : cfg.Tracks state past)

include h

section

variable (heartbeat : Option Nat) (elapsedMs : Nat)

/-- A missing heartbeat disarms, whichever call sees it. -/
theorem Tracks.disarm (hb : call.heartbeat = none) :
    cfg.Tracks state.disarm (⟨call, none⟩ :: past) := by
  have hfed : cfg.warmupFed (⟨call, none⟩ :: past) = 0 := by simp [warmupFed, hb]
  have hcool : cfg.cooldownFed (⟨call, none⟩ :: past) = none := by simp [cooldownFed, hb]
  have hhang : cfg.hangMs (⟨call, none⟩ :: past) = 0 := by
    cases call <;> simp_all [hangMs, Counted, Call.heartbeat]
  exact {
    initial := h.initial
    prev := by simp [observed, hb, WatchdogState.disarm]
    warmup := by simp [WatchdogState.disarm, h.initial, hfed]
    hang := by simp [WatchdogState.disarm, hhang]
    cooldown := by simp [WatchdogState.disarm, cooldownLeft, hcool]
    unarmed := fun _ => ⟨hfed, hcool, hhang⟩
    warming := fun _ => hcool }

/-- A first heartbeat is only a baseline: no time is attributed to it. -/
theorem Tracks.arm (hb : call.heartbeat = some current) (hprev : cfg.observed past = none) :
    cfg.Tracks { state with prevHeartbeat := some current } (⟨call, none⟩ :: past) := by
  obtain ⟨hw, hc, hh⟩ := h.unarmed hprev
  have hfed : cfg.warmupFed (⟨call, none⟩ :: past) = 0 := by simp [warmupFed, hprev]
  have hcool : cfg.cooldownFed (⟨call, none⟩ :: past) = none := by simp [cooldownFed, hb, hc]
  have hhang : cfg.hangMs (⟨call, none⟩ :: past) = 0 := by
    cases call <;> simp_all [hangMs, Counted, Call.heartbeat]
  exact {
    initial := h.initial
    prev := by simp [observed, hb]
    warmup := by simp [h.warmup, hfed, hw]
    hang := by simp [h.hang, hh, hhang]
    cooldown := by simp [h.cooldown, cooldownLeft, hcool, hc]
    unarmed := fun hn => by simp [observed, hb] at hn
    warming := fun _ => hcool }

/-- A call that sees a heartbeat after another one and does not fire: both
grace budgets shrink by what the call feeds. The budget that is not active
is empty, so the formula holds for it as well. -/
theorem Tracks.feed {next} (hb : call.heartbeat = some current)
    (hprev : cfg.observed past = some previous)
    (hinit : next.initialWarmupMs = state.initialWarmupMs)
    (hnext : next.prevHeartbeat = some current)
    (hwarm : next.warmupRemainingMs = state.warmupRemainingMs - fed (some previous) call)
    (hcool : next.cooldownRemainingMs = state.cooldownRemainingMs - fed (some previous) call)
    (hhang : next.hangAccumulatedMs = min (cfg.hangMs (⟨call, none⟩ :: past)) u64Max) :
    cfg.Tracks next (⟨call, none⟩ :: past) := by
  have hfed : cfg.warmupFed (⟨call, none⟩ :: past) =
      cfg.warmupFed past + fed (some previous) call := by
    simp [warmupFed, hb, hprev]
  have hcfed : cfg.cooldownFed (⟨call, none⟩ :: past) =
      (cfg.cooldownFed past).map (· + fed (some previous) call) := by
    simp [cooldownFed, hb, hprev]
  refine ⟨hinit.trans h.initial, by simp [observed, hb, hnext], ?_, hhang,
    ?_, fun hn => by simp [observed, hb] at hn, ?_⟩
  · rw [hwarm, h.warmup, hfed]
    omega
  · rw [hcool, h.cooldown, cooldownLeft, cooldownLeft, hcfed]
    cases cfg.cooldownFed past with
    | none => simp
    | some sum => simp [Nat.sub_sub]
  · intro hp
    have hpast : cfg.WarmupPending past := by
      unfold WarmupPending at hp ⊢
      omega
    rw [hcfed, h.warming hpast, Option.map_none]

/-- A fired tick: the cooldown starts over and the hang is forgotten. -/
theorem Tracks.fire {elapsedMs duration} (hprev : cfg.observed past = some previous)
    (hwarm : state.warmupRemainingMs = 0) : cfg.Tracks { state with
        cooldownRemainingMs := cfg.cooldownMs
        hangAccumulatedMs := 0
        prevHeartbeat := some current }
      (⟨.tick (some current) elapsedMs, some duration⟩ :: past) := by
  have hfed : cfg.warmupFed
      (⟨.tick (some current) elapsedMs, some duration⟩ :: past) =
      cfg.warmupFed past + elapsedMs := by
    simp [warmupFed, fed, hprev, Call.heartbeat]
  have hpast := h.warmup
  refine ⟨h.initial, rfl, ?_, by simp [hangMs], by simp [cooldownLeft, cooldownFed],
    fun hn => by simp [observed, Call.heartbeat] at hn, ?_⟩
  · simp only
    omega
  intro hp
  unfold WarmupPending at hp
  omega

/-- Spending on the active budget is spending on both: the other one is
empty. -/
theorem Tracks.consumeActiveGrace : state.consumeActiveGrace elapsedMs = { state with
        warmupRemainingMs := state.warmupRemainingMs - elapsedMs
        cooldownRemainingMs := state.cooldownRemainingMs - elapsedMs } := by
  unfold WatchdogState.consumeActiveGrace
  split
  · rename_i hw
    have hc : state.cooldownRemainingMs = 0 := by
      have hp := (cfg.warmupPending_iff).mpr (h.warmup ▸ hw)
      simp [h.cooldown, cooldownLeft, h.warming hp]
    simp [hc]
  · rename_i hw
    have hw0 : state.warmupRemainingMs = 0 := by omega
    split
    · simp [hw0]
    cases state
    simp_all

/-! ## One call -/

/-- A tick that sees two heartbeats in a row but is not counted only spends
grace. -/
theorem Tracks.tick_uncounted (hprev : cfg.observed past = some previous)
    (hn : ¬ cfg.Counted past (some current)) :
    updateWatchdogState state (some current) elapsedMs cfg.thresholdMs
        cfg.cooldownMs = (none, { state with
        warmupRemainingMs := state.warmupRemainingMs - elapsedMs
        cooldownRemainingMs := state.cooldownRemainingMs - elapsedMs
        prevHeartbeat := some current
        hangAccumulatedMs := 0 }) := by
  have hgrace := h.consumeActiveGrace elapsedMs
  unfold WatchdogState.consumeActiveGrace at hgrace
  simp only [updateWatchdogState, h.prev, hprev]
  split
  · -- warmup pending
    rename_i hw
    rw [if_pos hw] at hgrace
    simp only [WatchdogState.mk.injEq, true_and] at hgrace
    simp [← hgrace]
  · rename_i hw
    split
    · -- cooldown pending
      have : state.warmupRemainingMs = 0 := by omega
      simp [this]
    -- no grace pending, so the heartbeat must have changed
    rename_i hc
    have hne : current ≠ previous := by
      intro heq
      refine hn ⟨rfl, by rw [hprev, heq], ?_, ?_⟩
      · rw [warmupPending_iff, ← h.warmup]
        exact hw
      · rw [cooldownPending_iff, ← h.cooldown]
        exact hc
    have hw0 : state.warmupRemainingMs = 0 := by omega
    have hc0 : state.cooldownRemainingMs = 0 := by omega
    simp [hne, hw0, hc0]

/-- A counted tick adds its time to the hang and fires at the threshold. -/
theorem Tracks.tick_counted {heartbeat elapsedMs} (hc : cfg.Counted past heartbeat) :
    updateWatchdogState state heartbeat elapsedMs cfg.thresholdMs
        cfg.cooldownMs =
      if cfg.thresholdMs ≤ min (cfg.stalledMs past elapsedMs) u64Max then
        (some (min (cfg.stalledMs past elapsedMs) u64Max), { state with
          cooldownRemainingMs := cfg.cooldownMs
          hangAccumulatedMs := 0
          prevHeartbeat := heartbeat })
      else
        (none, { state with
          hangAccumulatedMs := min (cfg.stalledMs past elapsedMs) u64Max
          prevHeartbeat := heartbeat }) := by
  obtain ⟨hsome, heq, hw, hcool⟩ := hc
  obtain ⟨current, rfl⟩ := Option.isSome_iff_exists.mp hsome
  rw [warmupPending_iff, ← h.warmup] at hw
  rw [cooldownPending_iff, ← h.cooldown] at hcool
  have hsum : saturatingAdd state.hangAccumulatedMs elapsedMs =
      min (cfg.stalledMs past elapsedMs) u64Max := by
    rw [h.hang, saturatingAdd_min, stalledMs]
  simp only [updateWatchdogState, h.prev, ← heq, if_neg hw, if_neg hcool, if_true, hsum, ge_iff_le]

/-- What the watchdog answers to a tick, from the history alone. -/
theorem Tracks.tick_reported :
    (cfg.answer state (.tick heartbeat elapsedMs)).1 =
      if cfg.Counted past heartbeat ∧ cfg.thresholdMs ≤ min (cfg.stalledMs past elapsedMs) u64Max
      then some (min (cfg.stalledMs past elapsedMs) u64Max) else none := by
  by_cases hc : cfg.Counted past heartbeat
  · simp only [answer, h.tick_counted hc, hc, true_and]
    split <;> rfl
  rw [if_neg (fun hcon => hc hcon.1)]
  cases heartbeat with
  | none => rfl
  | some current =>
    cases hprev : cfg.observed past with
    | none => simp [answer, updateWatchdogState, h.prev, hprev]
    | some previous => rw [answer, h.tick_uncounted elapsedMs hprev hc]

theorem Tracks.tick :
    cfg.Tracks (cfg.answer state (.tick heartbeat elapsedMs)).2 (⟨.tick heartbeat elapsedMs,
        (cfg.answer state (.tick heartbeat elapsedMs)).1⟩ :: past) := by
  cases heartbeat with
  | none => exact h.disarm rfl
  | some current =>
    cases hprev : cfg.observed past with
    | none =>
      simp only [answer, updateWatchdogState, h.prev, hprev]
      exact h.arm rfl hprev
    | some previous =>
      by_cases hc : cfg.Counted past (some current)
      · have hw : state.warmupRemainingMs = 0 := by
          have := hc.2.2.1
          rw [warmupPending_iff, ← h.warmup] at this
          omega
        have hc0 : state.cooldownRemainingMs = 0 := by
          have := hc.2.2.2
          rw [cooldownPending_iff, ← h.cooldown] at this
          omega
        simp only [answer, h.tick_counted hc]
        split
        · exact h.fire hprev hw
        refine h.feed rfl hprev rfl rfl ?_ ?_ ?_
        · simp [hw]
        · simp [hc0]
        · simp [hangMs, hc, stalledMs]
      · rw [answer, h.tick_uncounted elapsedMs hprev hc]
        refine h.feed rfl hprev rfl rfl ?_ ?_ ?_
        · simp [fed]
        · simp [fed]
        · simp [hangMs, hc]

theorem Tracks.rebase : cfg.Tracks (cfg.answer state (.rebase heartbeat elapsedMs)).2
      (⟨.rebase heartbeat elapsedMs, none⟩ :: past) := by
  cases heartbeat with
  | none => exact h.disarm rfl
  | some current =>
    cases hprev : cfg.observed past with
    | none =>
      simp only [answer, WatchdogState.rebaseAfterMonitorWork, h.prev, hprev]
      exact h.arm rfl hprev
    | some previous =>
      simp only [answer, WatchdogState.rebaseAfterMonitorWork, h.prev, hprev]
      split
      · rename_i hne
        have hfed : fed (some previous) (.rebase (some current) elapsedMs) =
            elapsedMs := by simp [fed, Ne.symm hne]
        rw [h.consumeActiveGrace]
        refine h.feed rfl hprev rfl rfl (by rw [hfed]) (by rw [hfed]) ?_
        simp [hangMs, hprev, Ne.symm hne]
      · rename_i heq
        have heq : previous = current := not_not.mp heq
        subst heq
        refine h.feed rfl hprev rfl (h.prev.trans hprev) ?_ ?_ ?_
        · simp [fed]
        · simp [fed]
        · simp [hangMs, hprev, h.hang]

end

theorem Tracks.answer (call : Call) : cfg.Tracks (cfg.answer state call).2
      (⟨call, (cfg.answer state call).1⟩ :: past) := by
  cases call with
  | tick heartbeat elapsedMs => exact h.tick heartbeat elapsedMs
  | rebase heartbeat elapsedMs => exact h.rebase heartbeat elapsedMs

end

/-- Every run keeps the state a function of its history. -/
theorem tracks_run (cfg : Setup) (calls : List Call) :
    cfg.Tracks (cfg.run calls).1 (cfg.run calls).2 := by
  induction calls with
  | nil => exact cfg.tracks_new
  | cons call earlier ih => exact ih.answer call

/-- **Watchdog exactness**: after any run, a tick fires exactly when it is
counted and the counted time `d` has reached the threshold, and then it
reports `d`; the only reservation is that `d` fits its `u64`. -/
theorem tick_fires_iff (cfg : Setup) (calls : List Call) (heartbeat : Option Nat) (elapsedMs : Nat)
    (hd : cfg.stalledMs (cfg.run calls).2 elapsedMs ≤ u64Max) :
    let past := (cfg.run calls).2
    let reported := (cfg.answer (cfg.run calls).1 (.tick heartbeat elapsedMs)).1
    (reported.isSome ↔ cfg.Counted past heartbeat ∧
        cfg.thresholdMs ≤ cfg.stalledMs past elapsedMs) ∧ ∀ duration, reported = some duration →
        duration = cfg.stalledMs past elapsedMs := by
  intro past reported
  have hreported : reported = if cfg.Counted past heartbeat ∧
      cfg.thresholdMs ≤ cfg.stalledMs past elapsedMs
      then some (cfg.stalledMs past elapsedMs) else none := by
    have := (cfg.tracks_run calls).tick_reported heartbeat elapsedMs
    rwa [Nat.min_eq_left hd] at this
  rw [hreported]
  split
  · rename_i hfire
    exact ⟨by simp [hfire], fun duration h => (Option.some.inj h).symm⟩
  · rename_i hfire
    exact ⟨by simp [hfire], fun duration h => by cases h⟩

theorem tick_fires_after_warmup : (Setup.mk 5 10 1000 (some 7)).stalledMs
        ((Setup.mk 5 10 1000 (some 7)).run [.tick (some 7) 5]).2 10 ≤ u64Max ∧
      ((Setup.mk 5 10 1000 (some 7)).answer ((Setup.mk 5 10 1000 (some 7)).run [.tick (some 7) 5]).1
        (.tick (some 7) 10)).1 = some 10 := by
  have hd : (Setup.mk 5 10 1000 (some 7)).stalledMs
      ((Setup.mk 5 10 1000 (some 7)).run [.tick (some 7) 5]).2 10 ≤ u64Max := by
    decide
  have h := tick_fires_iff (Setup.mk 5 10 1000 (some 7)) [.tick (some 7) 5] (some 7) 10 hd
  obtain ⟨duration, hdur⟩ := Option.isSome_iff_exists.mp (h.1.mpr (by decide))
  refine ⟨hd, hdur.trans (congrArg some ((h.2 duration hdur).trans ?_))⟩
  decide

/-! ## Cooldown across a missing heartbeat

`cooldownFed` forgets the last fire when a heartbeat goes missing, as the
source does on purpose ("fully disarms"). A sum that runs on over the gap
is a different notion, and not the one the watchdog implements. -/

/-- Time fed since the last fired tick, missing heartbeats
notwithstanding. -/
def cooldownFedAcrossGaps (cfg : Setup) : List Entry → Option Nat
  | [] => none
  | entry :: past =>
    if entry.reported.isSome then some 0
    else (cooldownFedAcrossGaps cfg past).map (· + fed (cfg.observed past) entry.call)

/-- `Counted`, with the cooldown running on over missing heartbeats. -/
def CountedAcrossGaps (cfg : Setup) (past : List Entry) (heartbeat : Option Nat) : Prop :=
  heartbeat.isSome ∧ heartbeat = cfg.observed past ∧
    ¬ cfg.WarmupPending past ∧
    ¬ ∃ sum, cfg.cooldownFedAcrossGaps past = some sum ∧ sum < cfg.cooldownMs

/-- A fire, a lost and regained producer, and a second fire 12 ms after the
first one although the cooldown is a second. -/
theorem fires_within_cooldown_after_gap :
    let cfg : Setup := ⟨0, 10, 1000, some 5⟩
    let calls : List Call := [.tick (some 5) 1, .tick none 1, .tick (some 5) 10]
    let past := (cfg.run calls).2
    (cfg.answer (cfg.run calls).1 (.tick (some 5) 10)).1 = some 10 ∧
      cfg.cooldownFedAcrossGaps past = some 0 ∧ ¬ cfg.CountedAcrossGaps past (some 5) := by
  refine ⟨by decide, by decide, ?_⟩
  rintro ⟨-, -, -, h⟩
  exact h ⟨0, by decide, by decide⟩

end Setup

end CrashMonitor.Watchdog
