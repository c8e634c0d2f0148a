import CrashMonitor.EventLoop.Machine

/-!
# Event loop — replying to Mach exceptions

Every round of the loop handles the one event its wait returned, and the
effects of a run are those of its rounds, one after the other. `Handles` says
which effects a round may have: for a Mach exception exactly one reply on the
exception's own request, the request dropped next, the capture before the
reply and the finalization after it; for any other event none of these.
-/

namespace CrashMonitor.EventLoop

open List

variable {env : Env} {ctx : Context} {s : LoopState}
variable {event : Option MonitorEvent} {block : List Effect} {result : Option EventLoopResult}

/-! ## What a round may do -/

/-- An effect that belongs to no Mach exception. -/
def Effect.Unrelated : Effect → Prop
  | .reply _ _ => False
  | .dropRequest _ => False
  | .startCrashFinalization => False
  | .capture reportType _ => reportType ≠ .crash
  | _ => True

/-- The effects of a round, oldest first, and whether the loop returns. -/
inductive Handles (ctx : Context) :
    Option MonitorEvent → List Effect → Option EventLoopResult → Prop where
  /-- An exception nobody subscribed to is rejected, and the loop goes on. -/
  | ignored {exceptionType request deadline}
      (h : subscribed exceptionType = false) : Handles ctx (some (.crash exceptionType request))
        [.wait deadline, .reply request none, .dropRequest request] none
  /-- Its rejection could not be sent. -/
  | rejectionFailed {exceptionType request deadline error} (h : subscribed exceptionType = false) :
      Handles ctx (some (.crash exceptionType request))
        [.wait deadline, .reply request (some error), .dropRequest request,
          .detachCapture, .detachBackground] (some ⟨.monitorFailure
          ("failed to reject ignored Mach exception: " ++ error), false, true, false⟩)
  /-- A subscribed exception: capture if crashes are reported, reply, drop,
  and only then start the finalization; the loop returns. -/
  | crash {exceptionType request deadline error captured outcome}
      (h : subscribed exceptionType = true)
      (hcaptured : captured = true → ctx.reportEnabled .crash = true) :
      Handles ctx (some (.crash exceptionType request))
        ([.wait deadline] ++
          (if ctx.reportEnabled .crash then [.capture .crash none] else []) ++
          [.reply request error, .dropRequest request, .detachCapture,
            .detachBackground] ++ (if captured then [.startCrashFinalization] else []))
        (some ⟨outcome, captured, true, false⟩)
  | other {event : Option MonitorEvent} {block result}
      (hevent : ∀ exceptionType request, event ≠ some (.crash exceptionType request))
      (hblock : ∀ effect ∈ block, effect.Unrelated) (hreport : result = none → ∀ reportType,
        .finalizeTermination reportType ∉ block) : Handles ctx event block result

/-! ## One round -/

/-- `t` is reached from `s` by the effects of `block`, without another wait. -/
structure Emits (s t : LoopState) (block : List Effect) : Prop where
  effects : t.effects = block.reverse ++ s.effects
  waits : t.waits = s.waits

namespace Emits

variable {t u : LoopState} {block more : List Effect}

theorem trans (h : Emits s t block) (h' : Emits t u more) : Emits s u (block ++ more) := by
  constructor
  · rw [h'.effects, h.effects, reverse_append, append_assoc]
  · rw [h'.waits, h.waits]

end Emits

/-- `t` is reached from `s` by unrelated effects, none of them a termination
report. -/
def Quietly (s t : LoopState) : Prop :=
  ∃ block, Emits s t block ∧ ∀ effect ∈ block, effect.Unrelated ∧
    ∀ reportType, effect ≠ .finalizeTermination reportType

namespace Quietly

variable {t u : LoopState}

/-- Reading the environment leaves no effect. -/
theorem silent (heffects : t.effects = s.effects) (hwaits : t.waits = s.waits) : Quietly s t :=
  ⟨[], ⟨heffects, hwaits⟩, fun _ he => nomatch he⟩

theorem single (effect : Effect) (heffects : t.effects = effect :: s.effects)
    (hwaits : t.waits = s.waits) (hu : effect.Unrelated)
    (ht : ∀ reportType, effect ≠ .finalizeTermination reportType) : Quietly s t := by
  refine ⟨[effect], ⟨heffects, hwaits⟩, ?_⟩
  intro e he
  rw [mem_singleton] at he
  subst he
  exact ⟨hu, ht⟩

theorem trans (h : Quietly s t) (h' : Quietly t u) : Quietly s u := by
  obtain ⟨block, hemits, hquiet⟩ := h
  obtain ⟨more, hemits', hquiet'⟩ := h'
  exact ⟨block ++ more, hemits.trans hemits', forall_mem_append.mpr ⟨hquiet, hquiet'⟩⟩

theorem emit (h : Quietly s t) (effect : Effect) (hu : effect.Unrelated)
    (ht : ∀ reportType, effect ≠ .finalizeTermination reportType) : Quietly s (emit effect t) :=
  h.trans (single effect rfl rfl hu ht)

end Quietly

section

variable (env : Env) (ctx : Context) (s : LoopState)

theorem finishAnrMonitorWork_quietly {started s} :
    Quietly s (finishAnrMonitorWork env ctx started s) := by
  unfold finishAnrMonitorWork
  split
  · exact .silent rfl rfl
  split
  · exact .single (.observe _) rfl rfl trivial (by simp)
  · exact .silent rfl rfl

/-- A snapshot or ANR capture is followed by a contained finalization and the
end of the loop, or by its submission. -/
theorem afterCapture_quietly {captured started s} :
    Quietly s (afterCapture env ctx captured started s).1 := by
  have hchecked : Quietly s (taskControlMonitorFailure env s).2 := .silent rfl rfl
  unfold afterCapture
  dsimp only
  split
  · exact ((hchecked.emit .detachCapture trivial (by simp)).emit
      (.finalizeContained captured) trivial (by simp)).emit .detachBackground trivial (by simp)
  split
  · exact (hchecked.emit .submitBackground trivial (by simp)).trans
      (finishAnrMonitorWork_quietly env ctx)
  · exact hchecked.trans (finishAnrMonitorWork_quietly env ctx)

theorem capture_quietly {reportType hang} (hne : reportType ≠ .crash) {s} :
    Quietly s (capture env reportType hang s).2 :=
  .single (.capture reportType hang) rfl rfl hne (by simp)

theorem onSnapshot_quietly : Quietly s (onSnapshot env ctx s).1 := by
  unfold onSnapshot
  split
  · exact .silent rfl rfl
  have hnow : Quietly s (now env s).2 := .silent rfl rfl
  exact (hnow.trans (capture_quietly env (by decide))).trans (afterCapture_quietly env ctx)

theorem onIdle_quietly : Quietly s (onIdle env ctx s).1 := by
  unfold onIdle
  split
  · dsimp only
    split
    · split
      · exact .single (.observe _) rfl rfl trivial (by simp)
      -- the check, the capture it led to, and what follows
      refine .trans ?_ (afterCapture_quietly env ctx)
      refine .trans ?_ (capture_quietly env (by decide))
      exact .single (.observe _) rfl rfl trivial (by simp)
    · exact .silent rfl rfl
  · exact .silent rfl rfl

end

/-- The step is a round from `s`, which waited once and handled the event. -/
def Rounded (ctx : Context) (event : Option MonitorEvent) (s : LoopState) (step : Step) : Prop :=
  ∃ block, step.1.effects = block.reverse ++ s.effects ∧ step.1.waits = s.waits + 1 ∧
    Handles ctx event block step.2

/-- A round without a Mach exception, from the state after the wait. -/
theorem handles_other {t deadline result}
    (hevent : ∀ exceptionType request, event ≠ some (.crash exceptionType request))
    (h : Quietly (waitUntil env deadline s).2 t) : Rounded ctx event s (t, result) := by
  obtain ⟨block, hemits, hquiet⟩ := h
  refine ⟨.wait deadline :: block, ?_, hemits.waits, .other hevent ?_ ?_⟩
  · rw [hemits.effects, reverse_cons, append_assoc]
    rfl
  · exact forall_mem_cons.mpr ⟨trivial, fun effect he => (hquiet effect he).1⟩
  intro _ reportType he
  rcases mem_cons.mp he with he | he
  · cases he
  · exact (hquiet _ he).2 reportType rfl

section

variable (env : Env) (ctx : Context) (s : LoopState)

/-- The round of a Mach exception. -/
theorem handles_crash {exceptionType request deadline s} :
    Rounded ctx (some (.crash exceptionType request)) s
      (onCrash env ctx exceptionType request (waitUntil env deadline s).2) := by
  unfold onCrash
  split
  · next hsub =>
      have hsub : subscribed exceptionType = false := by simpa using hsub
      unfold replyAndDrop
      dsimp only
      split
      · next error herror =>
          refine ⟨_, ?_, rfl, @Handles.rejectionFailed _ _ _ deadline _ hsub⟩
          rw [herror]
          rfl
      · next herror =>
          refine ⟨_, ?_, rfl, @Handles.ignored _ _ _ deadline hsub⟩
          rw [herror]
          rfl
  · next hsub =>
      have hsub : subscribed exceptionType = true := by simpa using hsub
      -- only the capture, if crashes are reported, comes before the reply
      by_cases henabled : ctx.reportEnabled .crash = true
      · refine ⟨[.wait deadline] ++ [.capture .crash none] ++
          [.reply request (env.replyError s.replies), .dropRequest request,
            .detachCapture, .detachBackground] ++
          (if env.captured s.captures then [.startCrashFinalization] else []), ?_, ?_, ?_⟩
        iterate 2
          rw [if_pos henabled]
          simp only [capture, replyAndDrop, taskControlMonitorFailure, detachWorkers, waitUntil,
            emit]
          by_cases hc : env.captured s.captures = true <;> simp [hc]
        · have hcrash := @Handles.crash ctx exceptionType request deadline
            (env.replyError s.replies) (env.captured s.captures)
          rw [if_pos henabled] at hcrash ⊢
          exact hcrash hsub fun _ => henabled
      · refine ⟨[.wait deadline] ++ [] ++
          [.reply request (env.replyError s.replies), .dropRequest request,
            .detachCapture, .detachBackground] ++ [], ?_, ?_, ?_⟩
        iterate 2
          rw [if_neg henabled]
          rfl
        have hcrash := @Handles.crash ctx exceptionType request deadline
          (env.replyError s.replies) false
        rw [if_neg henabled] at hcrash ⊢
        exact hcrash hsub nofun

theorem shutdownWorkers_quietly : Quietly s (shutdownWorkers s) :=
  ((Quietly.silent rfl rfl).emit .shutdownCapture trivial (by simp)).emit
    .shutdownBackground trivial (by simp)

/-- The one round that may report a termination ends the loop. -/
theorem handles_childTerminated {reason deadline s} : Rounded ctx (some (.childTerminated reason)) s
      (onChildTerminated ctx reason (waitUntil env deadline s).2) := by
  unfold onChildTerminated
  cases terminationReportType ctx reason with
  | none => exact handles_other (by simp) (shutdownWorkers_quietly _)
  | some reportType =>
    refine ⟨[.wait deadline, .finalizeTermination reportType,
      .shutdownCapture, .shutdownBackground], rfl, rfl, .other (by simp) ?_ nofun⟩
    intro effect he
    simp only [mem_cons, not_mem_nil, or_false] at he
    rcases he with rfl | rfl | rfl | rfl <;> trivial

/-- **One round.** The loop waits once and handles the event it got. -/
theorem iteration_handles : Rounded ctx (env.wait s.waits) s (iteration env ctx s) := by
  unfold iteration
  dsimp only
  have hevent : (waitUntil env (nextWatchdogCheck ctx s) s).1 = env.wait s.waits := rfl
  rw [hevent]
  generalize env.wait s.waits = event
  cases event with
  | none => exact handles_other (by simp) (onIdle_quietly env ctx _)
  | some event =>
    cases event with
    | crash exceptionType request => exact handles_crash env ctx
    | snapshot => exact handles_other (by simp) (onSnapshot_quietly env ctx _)
    | shutdownSignal signal | listenerFailure message | monitorFailure message =>
      exact handles_other (by simp) (shutdownWorkers_quietly _)
    | childTerminated reason => exact handles_childTerminated env ctx

/-! ## Every run -/

/-- The request an event brings: that of a Mach exception. -/
def eventRequest : Option MonitorEvent → Option Nat
  | some (.crash _ request) => some request
  | _ => none

/-- The requests of the Mach exceptions among the first `n` events. -/
def deliveredRequests (n : Nat) : List Nat :=
  (List.range n).filterMap fun k => eventRequest (env.wait k)

def Effect.repliedRequest : Effect → Option Nat
  | .reply request _ => some request
  | _ => none

def Effect.droppedRequest : Effect → Option Nat
  | .dropRequest request => some request
  | _ => none

/-- The rounds of a run: one block for every event that was delivered, and a
result only of the last. -/
structure Rounds (run : Step) (blocks : List (List Effect)) : Prop where
  trace : run.1.effects.reverse = (start env ctx).effects.reverse ++ blocks.flatten
  delivered : blocks.length = run.1.waits
  handles : ∀ k (hk : k < blocks.length), Handles ctx (env.wait k) blocks[k]
    (if k + 1 = blocks.length then run.2 else none)

end

theorem Rounds.iteration {s blocks} (h : Rounds env ctx (s, none) blocks) :
    ∃ blocks, Rounds env ctx (iteration env ctx s) blocks := by
  obtain ⟨block, heffects, hwaits, hhandles⟩ := iteration_handles env ctx s
  refine ⟨blocks ++ [block], ?_, ?_, ?_⟩
  · rw [heffects, reverse_append, reverse_reverse, h.trace,
      flatten_append, flatten_singleton, append_assoc]
  · rw [length_append, h.delivered, hwaits]
    rfl
  intro k hk
  rw [length_append, length_singleton] at hk ⊢
  rcases Nat.lt_or_ge k blocks.length with hlt | hge
  · have hold := h.handles k hlt
    rw [ite_self] at hold
    rw [getElem_append_left hlt, if_neg (by omega)]
    exact hold
  · obtain rfl : k = blocks.length := by omega
    rw [if_pos rfl, getElem_concat_length rfl, h.delivered]
    exact hhandles

theorem eventLoop_rounds {env ctx n} : ∃ blocks, Rounds env ctx (eventLoop env ctx n) blocks := by
  induction n with
  | zero =>
    refine ⟨[], ?_, ?_, nofun⟩
    · rw [flatten_nil, append_nil]
      rfl
    show 0 = (start env ctx).waits
    unfold start
    split <;> rfl
  | succ n ih =>
    obtain ⟨blocks, h⟩ := ih
    rw [eventLoop]
    split
    · next s result heq => exact ⟨blocks, heq ▸ h⟩
    next s heq =>
    rw [heq] at h
    exact h.iteration

/-- As long as the loop has not returned, every round takes an event; one that
returned has taken at least one. -/
theorem eventLoop_waits {env ctx n} :
    ((eventLoop env ctx n).2 = none → (eventLoop env ctx n).1.waits = n) ∧
    ((eventLoop env ctx n).2 ≠ none →
      0 < (eventLoop env ctx n).1.waits ∧ (eventLoop env ctx n).1.waits ≤ n) := by
  induction n with
  | zero =>
    refine ⟨fun _ => ?_, fun h => absurd rfl h⟩
    show (start env ctx).waits = 0
    unfold start
    split <;> rfl
  | succ n ih =>
    rw [eventLoop]
    split
    · next s result heq =>
        rw [heq] at ih
        have hbound := ih.2 (by simp)
        exact ⟨by simp, fun _ => ⟨hbound.1, by omega⟩⟩
    · next s heq =>
        rw [heq] at ih
        obtain ⟨-, -, hwaits, -⟩ := iteration_handles env ctx s
        have hbefore : s.waits = n := ih.1 rfl
        rw [hwaits, hbefore]
        exact ⟨fun _ => rfl, fun _ => ⟨by omega, by omega⟩⟩

/-- A block replies to the request of its event, if it has one, and drops
it. -/
theorem Handles.requests (h : Handles ctx event block result) :
    block.filterMap Effect.repliedRequest = (eventRequest event).toList ∧
      block.filterMap Effect.droppedRequest = block.filterMap Effect.repliedRequest := by
  cases h with
  | ignored h | rejectionFailed h => exact ⟨rfl, rfl⟩
  | @crash _ _ _ _ captured _ h hcaptured => constructor <;> cases captured <;> split <;> rfl
  | other hevent hblock hreport =>
    have hnone : ∀ effect ∈ block, effect.repliedRequest = none ∧ effect.droppedRequest = none := by
      intro effect he
      have hu := hblock effect he
      cases effect <;> first | exact ⟨rfl, rfl⟩ | exact hu.elim
    rw [filterMap_eq_nil_iff.mpr fun e he => (hnone e he).1,
      filterMap_eq_nil_iff.mpr fun e he => (hnone e he).2]
    refine ⟨?_, rfl⟩
    unfold eventRequest
    split
    · next exceptionType request => exact absurd rfl (hevent _ _)
    · rfl

/-- A termination report is the work of a round that ends the loop without a
Mach exception. -/
theorem Handles.no_report (h : Handles ctx event block result)
    (hevent : result = none ∨ ∃ exceptionType request, event = some (.crash exceptionType request))
    {reportType} : .finalizeTermination reportType ∉ block := by
  cases h with
  | ignored h | rejectionFailed h => simp
  | crash h hcaptured =>
    intro he
    simp only [mem_append, mem_cons, not_mem_nil, or_false, reduceCtorEq, false_or] at he
    rcases he with he | he <;> split at he <;> simp at he
  | other hother hblock hreport =>
    rcases hevent with hnone | ⟨exceptionType, request, heq⟩
    · exact hreport hnone reportType
    · exact absurd heq (hother _ _)

/-- Only a subscribed exception, which ends the loop and asks for the crash
clean-up, has such a round. -/
theorem Handles.subscribed_result {exceptionType request}
    (h : Handles ctx (some (.crash exceptionType request)) block result)
    (hsub : subscribed exceptionType = true) :
    ∃ r, result = some r ∧ r.crashCleanupRequired = true := by
  cases h with
  | ignored h | rejectionFailed h => rw [hsub] at h; cases h
  | crash h hcaptured => exact ⟨_, rfl, rfl⟩
  | other hother hblock hreport => exact absurd rfl (hother _ _)

theorem start_effects {env ctx} : ∀ effect ∈ (start env ctx).effects, ∃ o, effect = .observe o := by
  unfold start
  split
  · intro effect he
    exact ⟨_, mem_singleton.mp he⟩
  · intro effect he
    cases he

/-- What a run collects from its effects, it collects from its rounds. -/
theorem Rounds.collects {run blocks}
    (h : Rounds env ctx run blocks) {f} (hstart : ∀ o, f (.observe o) = none)
    (hf : ∀ {event block result}, Handles ctx event block result →
      block.filterMap f = (eventRequest event).toList) :
    run.1.effects.reverse.filterMap f = deliveredRequests env run.1.waits := by
  have hnone : (start env ctx).effects.reverse.filterMap f = [] := by
    rw [filterMap_eq_nil_iff]
    intro effect he
    obtain ⟨o, rfl⟩ := start_effects effect (mem_reverse.mp he)
    exact hstart o
  -- the blocks one after the other, each with its event
  have hblocks : ∀ n ≤ blocks.length,
      (blocks.take n).flatten.filterMap f = deliveredRequests env n := by
    intro n
    induction n with
    | zero => intro _; rfl
    | succ n ih =>
      intro hn
      have hlt : n < blocks.length := hn
      rw [take_add_one, List.getElem?_eq_getElem hlt, Option.toList_some,
        flatten_append, flatten_singleton, filterMap_append,
        ih (by omega), hf (h.handles n hlt), deliveredRequests,
        deliveredRequests, range_succ, filterMap_append]
      cases hrequest : eventRequest (env.wait n) <;> simp [hrequest]
  rw [h.trace, filterMap_append, hnone, nil_append,
    ← take_length (l := blocks), hblocks _ (Nat.le_refl _), h.delivered]

/-- **The reply protocol.** Every round takes an event, until the loop returns.
A run is the sequence of its rounds, one for every event delivered, each as
`Handles` says: the requests replied to, and the requests dropped, are those of
the Mach exceptions delivered, each once and in their order. A run with a
subscribed exception has returned, asks for the crash clean-up and has reported
no termination of the child. -/
theorem event_loop_reply_protocol (env : Env) (ctx : Context) (n : Nat) :
    ((eventLoop env ctx n).2 = none → (eventLoop env ctx n).1.waits = n) ∧
    ((eventLoop env ctx n).2 ≠ none →
      0 < (eventLoop env ctx n).1.waits ∧ (eventLoop env ctx n).1.waits ≤ n) ∧
    (∃ blocks, Rounds env ctx (eventLoop env ctx n) blocks) ∧
    (eventLoop env ctx n).1.effects.reverse.filterMap Effect.repliedRequest =
      deliveredRequests env (eventLoop env ctx n).1.waits ∧
    (eventLoop env ctx n).1.effects.reverse.filterMap Effect.droppedRequest =
      deliveredRequests env (eventLoop env ctx n).1.waits ∧
    ∀ k < (eventLoop env ctx n).1.waits, ∀ exceptionType request,
      env.wait k = some (.crash exceptionType request) → subscribed exceptionType = true →
      (∃ result, (eventLoop env ctx n).2 = some result ∧
        result.crashCleanupRequired = true) ∧ ∀ reportType,
        .finalizeTermination reportType ∉ (eventLoop env ctx n).1.effects := by
  obtain ⟨blocks, h⟩ := eventLoop_rounds
  refine ⟨eventLoop_waits.1, eventLoop_waits.2, ⟨blocks, h⟩,
    h.collects (fun _ => rfl) fun hb => hb.requests.1,
    h.collects (fun _ => rfl) fun hb => hb.requests.2.trans hb.requests.1, ?_⟩
  intro k hk exceptionType request hwait hsub
  rw [← h.delivered] at hk
  have hround := h.handles k hk
  rw [hwait] at hround
  obtain ⟨result, hresult, hcleanup⟩ := hround.subscribed_result hsub
  -- only the last round has a result, so this is the last one
  have hlast : k + 1 = blocks.length := by
    by_contra hne
    rw [if_neg hne] at hresult
    cases hresult
  rw [if_pos hlast] at hresult
  refine ⟨⟨result, hresult, hcleanup⟩, ?_⟩
  intro reportType hmem
  rw [← mem_reverse, h.trace, mem_append, mem_flatten] at hmem
  rcases hmem with hmem | ⟨block, hblock, hmem⟩
  · obtain ⟨o, ho⟩ := start_effects _ (mem_reverse.mp hmem)
    cases ho
  obtain ⟨i, hi, rfl⟩ := mem_iff_getElem.mp hblock
  refine (h.handles i hi).no_report ?_ hmem
  by_cases hik : i = k
  · exact .inr ⟨exceptionType, request, hik ▸ hwait⟩
  · exact .inl (if_neg (by omega))

/-- A software exception nobody subscribed to, and later a bad access. -/
def twoExceptions : Env where
  clock k := k
  heartbeat _ := none
  wait k := if k = 0 then some (.crash 5 70) else if k = 2 then some (.crash 1 80) else none
  captured _ := true
  taskControlFailure _ := none
  replyError _ := none

/-- Crashes are reported, and nothing else is. -/
def crashesOnly : Context := ⟨fun reportType => reportType = .crash, false, none⟩

/-- Both requests are replied to, the second after its capture, and the loop
returns after the third event. -/
theorem two_exceptions_replied :
    (eventLoop twoExceptions crashesOnly 2).1.waits = 2 ∧
    (eventLoop twoExceptions crashesOnly 9).2 = some ⟨.detectedCrash, true, true, false⟩ ∧
    (eventLoop twoExceptions crashesOnly 9).1.waits = 3 ∧
    (eventLoop twoExceptions crashesOnly 9).1.effects.reverse.filterMap Effect.repliedRequest
      = [70, 80] ∧
    (eventLoop twoExceptions crashesOnly 9).1.effects.reverse.drop 4 =
      [.wait none, .capture .crash none, .reply 80 none, .dropRequest 80, .detachCapture,
        .detachBackground, .startCrashFinalization] := by
  have hreplies := (event_loop_reply_protocol twoExceptions crashesOnly 9).2.2.2.1
  exact ⟨(event_loop_reply_protocol twoExceptions crashesOnly 2).1 rfl, rfl, rfl,
    hreplies.trans (by decide), rfl⟩

end CrashMonitor.EventLoop
