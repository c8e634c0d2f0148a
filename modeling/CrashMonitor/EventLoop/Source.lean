import CrashMonitor.EventLoop.ReplyProtocol

/-!
# The event source

`MacEventSource` of `event_source.rs`, the consumer side: `poll` drains the
wake pipe, takes at most one event from the listener channel, asks `waitpid`,
and looks at the signals last; `wait_until` polls, blocks in `kevent`, and
polls once more. The source is a machine that moves at every call it makes to
the outside, with the answer it got, so that a list of calls is one order in
which things became ready.
-/

namespace CrashMonitor.EventLoop

open MachineInt Watchdog List Option

/-! ## What the calls answer -/

/-- The signals the handler is installed for. -/
inductive MonitoredSignal where
  | sigterm
  | sigint
  | sigusr1
  deriving DecidableEq, Repr

/-- The event a signal is delivered as. -/
def MonitoredSignal.event : MonitoredSignal → MonitorEvent
  | .sigterm => .shutdownSignal 15
  | .sigint => .shutdownSignal 2
  | .sigusr1 => .snapshot

/-- The bits of `PENDING_SIGNALS`. -/
abbrev PendingSignals := MonitoredSignal → Bool

/-- The signals of `drain_signal_pipe`, in the order they are pushed. -/
def drainedSignals (pending : PendingSignals) : List MonitoredSignal :=
  [.sigterm, .sigint, .sigusr1].filter pending

/-- `ExceptionListenerEvent`. -/
inductive ListenerEvent where
  | exception (exceptionType request : Nat)
  | fatal (message : String)
  deriving DecidableEq, Repr

/-- The result of `try_recv`. -/
inductive Received where
  | event (e : ListenerEvent)
  | empty
  | disconnected
  deriving DecidableEq, Repr

def ListenerEvent.toMonitor : ListenerEvent → MonitorEvent
  | .exception exceptionType request => .crash exceptionType request
  | .fatal message => .listenerFailure message

/-- `poll_exception_listener` and what `poll` makes of it. -/
def Received.toMonitor : Received → Option MonitorEvent
  | .event e => some e.toMonitor
  | .empty => none
  | .disconnected => some (.listenerFailure
      "Mach exception listener disconnected without a terminal event")

inductive WaitStatus where
  | exited (exitCode : Int)
  | signaled (signal : Int) (coreDumped : Bool)
  | stopped
  | continued
  | stillAlive
  deriving DecidableEq, Repr

/-- `termination_from_wait_status`, with the runtime in nanoseconds. -/
def terminationFromWaitStatus (status : WaitStatus) (runtime : Nat) : Option TerminationReason :=
  match status with
  | .exited exitCode => some (.exited exitCode (tryFromOrMax (asMillis runtime)))
  | .signaled signal coreDumped =>
    some (.signaled signal coreDumped (tryFromOrMax (asMillis runtime)))
  | .stopped | .continued | .stillAlive => none

/-- The result of `waitpid` without hanging. -/
inductive WaitAnswer where
  | changed (status : WaitStatus) (runtime : Nat)
  | interrupted
  | noChild
  | failed (error : String)
  deriving DecidableEq, Repr

/-- The event an answer of `waitpid` stands for. -/
def WaitAnswer.event : WaitAnswer → Option MonitorEvent
  | .changed status runtime => (terminationFromWaitStatus status runtime).map .childTerminated
  | .interrupted => none
  | .noChild => some (.monitorFailure "waitpid lost ownership of the child (ECHILD)")
  | .failed error => some (.monitorFailure ("waitpid failed: " ++ error))

theorem event_of_waitAnswer {answer : WaitAnswer} {event} (h : answer.event = some event) :
    (∃ reason, some event = some (.childTerminated reason)) ∨
      ∃ message, some event = some (.monitorFailure message) := by
  cases answer with
  | changed status runtime =>
    obtain ⟨reason, -, rfl⟩ := map_eq_some_iff.mp h
    exact .inl ⟨reason, rfl⟩
  | interrupted => cases h
  | noChild | failed e => cases h; exact .inr ⟨_, rfl⟩

/-- The result of reading from a pipe. -/
inductive ReadAnswer where
  | bytes (count : Nat)
  | endOfFile
  | wouldBlock
  | interrupted
  | failed (error : String)
  deriving DecidableEq, Repr

/-- The result of `kevent`; after an interruption the clock is read. -/
inductive KeventAnswer where
  | ready
  | timedOut
  | interrupted (now : Nat)
  | failed (error : String)
  deriving DecidableEq, Repr

/-! ## The machine -/

/-- One run of `poll` within a `wait_until`: the deadline of the wait, and
whether `kevent` has returned already. -/
structure Poll where
  deadline : Option Nat
  waited : Bool
  deriving DecidableEq, Repr

/-- Where the source is. -/
inductive SourcePoint where
  /-- in the event loop -/
  | resting
  | drainingWake (p : Poll)
  | receiving (p : Poll)
  /-- asking for the child, with what the listener had -/
  | reaping (p : Poll) (listener : Option MonitorEvent)
  | drainingSignals (p : Poll)
  | swapping (p : Poll)
  /-- about to call `kevent`, or blocked in it -/
  | waiting (deadline : Option Nat)
  | returning (event : Option MonitorEvent)
  deriving DecidableEq, Repr

structure Source where
  childExitWakeupRegistered : Bool
  pendingChildTermination : Option TerminationReason
  pendingSignals : List MonitoredSignal
  point : SourcePoint
  deriving DecidableEq, Repr

def Source.goTo (c : Source) (point : SourcePoint) : Source := { c with point := point }

/-- A call of the source with its answer; the first and the last are the call
of `wait_until` itself. -/
inductive SourceCall where
  | waitUntil (deadline : Option Nat)
  | readWake (answer : ReadAnswer)
  | tryRecv (answer : Received)
  | waitpid (answer : WaitAnswer)
  | readSignal (answer : ReadAnswer)
  | swapPending (pending : PendingSignals)
  /-- with the clock readings its timeout is computed from -/
  | kevent (started now : Nat) (answer : KeventAnswer)
  | returned (event : Option MonitorEvent)

/-- `prioritize_ready_events`. -/
def prioritizeReadyEvents (child listener : Option MonitorEvent) : Option MonitorEvent :=
  child.or listener

/-- `child_wait_deadline`, the interval being 50 ms. -/
def childWaitDeadline (deadline : Option Nat) (registered : Bool) (now : Nat) : Option Nat :=
  if registered then deadline
  else
    let childPoll := (instantCheckedAdd now 50000000).getD now
    some (deadline.elim childPoll fun deadline => min deadline childPoll)

namespace Source

variable {c c' : Source} {rest : List SourceCall} {event : Option MonitorEvent}

section

variable (c : Source) (p : Poll) (deadline : Option Nat)

/-- What `wait_until` does with the result of a `poll`. -/
def settle : Option MonitorEvent → SourcePoint
  | some event => .returning (some event)
  | none => if p.waited then .returning none else .waiting p.deadline

/-- The end of `poll`: the first of the signals in hand. -/
def popSignal : Source :=
  match c.pendingSignals with
  | [] => c.goTo (settle p none)
  | signal :: rest => { c with pendingSignals := rest, point := settle p (some signal.event) }

/-- `poll` once the child and the listener have been asked. -/
def prioritize (child listener : Option MonitorEvent) : Source :=
  match prioritizeReadyEvents child listener with
  | some event => c.goTo (settle p (some event))
  | none => if c.pendingSignals = [] then c.goTo (.drainingSignals p) else c.popSignal p

/-- `poll` after `try_recv`. -/
def afterReceive (listener : Option MonitorEvent) : Source :=
  match c.pendingChildTermination with
  | some reason =>
    { c with pendingChildTermination := none }.prioritize p
      (some (.childTerminated reason)) listener
  | none => c.goTo (.reaping p listener)

/-- The timeout handed to `kevent`; `none` blocks without a bound. -/
def timeout (started now : Nat) : Option Nat :=
  (childWaitDeadline deadline c.childExitWakeupRegistered started).map (· - now)

/-- `wait_until` after `kevent`. -/
def afterKevent : KeventAnswer → Source
  | .ready => c.goTo (.drainingWake ⟨deadline, true⟩)
  | .timedOut => c.goTo (.returning none)
  | .interrupted now =>
    if deadline.any (· ≤ now) then c.goTo (.returning none) else c
  | .failed error => c.goTo (.returning (some (.monitorFailure ("kqueue wait failed: " ++ error))))

end

/-- The move at a call; `none` if the source does not make this call here. -/
def step (c : Source) (call : SourceCall) : Option Source :=
  match c.point, call with
  | .resting, .waitUntil deadline => some (c.goTo (.drainingWake ⟨deadline, false⟩))
  | .drainingWake p, .readWake answer =>
    match answer with
    | .bytes _ | .interrupted => some c
    | .endOfFile | .wouldBlock | .failed _ => some (c.goTo (.receiving p))
  | .receiving p, .tryRecv answer => some (c.afterReceive p answer.toMonitor)
  | .reaping p listener, .waitpid answer =>
    if answer = .interrupted then some c
    else some (c.prioritize p answer.event listener)
  | .drainingSignals p, .readSignal answer =>
    match answer with
    | .bytes _ | .interrupted => some c
    | .endOfFile | .wouldBlock => some (c.goTo (.swapping p))
    | .failed error => some (c.goTo (settle p
        (some (.monitorFailure ("signal pipe drain failed: " ++ error)))))
  | .swapping p, .swapPending pending =>
    some ({ c with pendingSignals := c.pendingSignals ++ drainedSignals pending }.popSignal p)
  | .waiting deadline, .kevent _ _ answer => some (c.afterKevent deadline answer)
  | .returning event, .returned returned =>
    if returned = event then some (c.goTo .resting) else none
  | _, _ => none

/-- The source after a list of calls. -/
def run (c : Source) : List SourceCall → Option Source
  | [] => some c
  | call :: rest => (c.step call).bind fun c => c.run rest

/-- What a move can be, one rule for each line of the source that goes on. -/
inductive Moves (c : Source) : SourceCall → Source → Prop where
  | waitUntil {deadline} (h : c.point = .resting) :
      Moves c (.waitUntil deadline) (c.goTo (.drainingWake ⟨deadline, false⟩))
  | readWake {p answer} (h : c.point = .drainingWake p)
      (hmore : (∃ count, answer = .bytes count) ∨ answer = .interrupted) :
      Moves c (.readWake answer) c
  | drainedWake {p answer} (h : c.point = .drainingWake p)
      (hend : answer = .endOfFile ∨ answer = .wouldBlock ∨ ∃ e, answer = .failed e) :
      Moves c (.readWake answer) (c.goTo (.receiving p))
  | tryRecv {p answer} (h : c.point = .receiving p) :
      Moves c (.tryRecv answer) (c.afterReceive p answer.toMonitor)
  | reapAgain {p listener} (h : c.point = .reaping p listener) : Moves c (.waitpid .interrupted) c
  | reap {p listener answer} (h : c.point = .reaping p listener) (hanswer : answer ≠ .interrupted) :
      Moves c (.waitpid answer) (c.prioritize p answer.event listener)
  | readSignal {p answer} (h : c.point = .drainingSignals p)
      (hmore : (∃ count, answer = .bytes count) ∨ answer = .interrupted) :
      Moves c (.readSignal answer) c
  | drainedSignals {p answer} (h : c.point = .drainingSignals p)
      (hend : answer = .endOfFile ∨ answer = .wouldBlock) :
      Moves c (.readSignal answer) (c.goTo (.swapping p))
  | drainFailed {p e} (h : c.point = .drainingSignals p) :
      Moves c (.readSignal (.failed e)) (c.goTo (settle p
        (some (.monitorFailure ("signal pipe drain failed: " ++ e)))))
  | swapPending {p pending} (h : c.point = .swapping p) :
      Moves c (.swapPending pending) ({ c with pendingSignals :=
            c.pendingSignals ++ EventLoop.drainedSignals pending }.popSignal p)
  | kevent {deadline started now answer} (h : c.point = .waiting deadline) :
      Moves c (.kevent started now answer) (c.afterKevent deadline answer)
  | returned {event : Option MonitorEvent} (h : c.point = .returning event) :
      Moves c (.returned event) (c.goTo .resting)

theorem moves_of_step {call} (h : c.step call = some c') : Moves c call c' := by
  unfold step at h
  split at h
  · next hpoint => exact some.inj h ▸ .waitUntil hpoint
  · next p answer hpoint =>
      cases answer with
      | bytes count => exact some.inj h ▸ .readWake hpoint (.inl ⟨count, rfl⟩)
      | interrupted => exact some.inj h ▸ .readWake hpoint (.inr rfl)
      | endOfFile => exact some.inj h ▸ .drainedWake hpoint (.inl rfl)
      | wouldBlock => exact some.inj h ▸ .drainedWake hpoint (.inr (.inl rfl))
      | failed e => exact some.inj h ▸ .drainedWake hpoint (.inr (.inr ⟨e, rfl⟩))
  · next hpoint => exact some.inj h ▸ .tryRecv hpoint
  · next p listener answer hpoint =>
      split at h
      · next heq => exact heq ▸ some.inj h ▸ .reapAgain hpoint
      · next hne => exact some.inj h ▸ .reap hpoint hne
  · next p answer hpoint =>
      cases answer with
      | bytes count => exact some.inj h ▸ .readSignal hpoint (.inl ⟨count, rfl⟩)
      | interrupted => exact some.inj h ▸ .readSignal hpoint (.inr rfl)
      | endOfFile => exact some.inj h ▸ .drainedSignals hpoint (.inl rfl)
      | wouldBlock => exact some.inj h ▸ .drainedSignals hpoint (.inr rfl)
      | failed e => exact some.inj h ▸ .drainFailed hpoint
  · next hpoint => exact some.inj h ▸ .swapPending hpoint
  · next hpoint => exact some.inj h ▸ .kevent hpoint
  · next event returned hpoint =>
      split at h
      · next heq => exact heq ▸ some.inj h ▸ .returned hpoint
      · cases h
  · cases h

theorem run_cons {call} (h : c.run (call :: rest) = some c') :
    ∃ mid, Moves c call mid ∧ mid.run rest = some c' := by
  obtain ⟨mid, hstep, hrest⟩ := bind_eq_some_iff.mp h
  exact ⟨mid, moves_of_step hstep, hrest⟩

/-- A source that returns makes no other call. -/
theorem run_returning (hpoint : c.point = .returning event)
    (hwithin : ∀ e, .returned e ∉ rest) (h : c.run rest = some c') : rest = [] ∧ c' = c := by
  cases rest with
  | nil => exact ⟨rfl, (some.inj h).symm⟩
  | cons call rest =>
    obtain ⟨mid, hmove, -⟩ := run_cons h
    cases hmove with
    | returned _ => exact absurd mem_cons_self (hwithin _)
    | _ => simp_all

/-! ## A Mach exception in hand -/

/-- No answer of `waitpid` among these calls stands for an event. -/
def ChildSilent (c : Source) (calls : List SourceCall) : Prop :=
  c.pendingChildTermination = none ∧ ∀ answer, .waitpid answer ∈ calls → answer.event = none

/-- The child comes first: with an event of the listener in hand, `poll` returns
it only if nothing is to be said of the child. -/
theorem run_reaping {p listener}
    (hpoint : c.point = .reaping p (some listener)) (hwithin : ∀ e, .returned e ∉ rest)
    (h : c.run rest = some c') (hreturn : c'.point = .returning event) :
    ((∀ answer, .waitpid answer ∈ rest → answer.event = none) ∧ event = some listener) ∨
      ∃ answer child, .waitpid answer ∈ rest ∧ answer.event = some child ∧ event = some child := by
  induction rest with
  | nil =>
    cases h
    rw [hpoint] at hreturn
    cases hreturn
  | cons call rest ih =>
    have htail : ∀ e, .returned e ∉ rest := fun e he => hwithin e (mem_cons_of_mem _ he)
    obtain ⟨mid, hmove, hrest⟩ := run_cons h
    cases hmove with
    | reapAgain _ =>
      rcases ih htail hrest with ⟨hsilent, hevent⟩ | ⟨answer, child, hmem, hchild⟩
      · left
        refine ⟨fun answer hmem => ?_, hevent⟩
        rcases mem_cons.mp hmem with heq | hmem
        · cases heq
          rfl
        · exact hsilent answer hmem
      · exact .inr ⟨answer, child, mem_cons_of_mem _ hmem, hchild⟩
    | @reap q other answer hother _ =>
      rw [hpoint] at hother
      cases hother
      cases hchild : answer.event with
      | none =>
        have hmid : (c.prioritize p answer.event (some listener)).point =
            .returning (some listener) := by rw [hchild]; rfl
        obtain ⟨rfl, rfl⟩ := run_returning hmid htail hrest
        rw [hmid] at hreturn
        cases hreturn
        left
        refine ⟨fun a ha => ?_, rfl⟩
        cases mem_singleton.mp ha
        exact hchild
      | some child =>
        have hmid : (c.prioritize p answer.event (some listener)).point =
            .returning (some child) := by rw [hchild]; rfl
        obtain ⟨rfl, rfl⟩ := run_returning hmid htail hrest
        rw [hmid] at hreturn
        cases hreturn
        exact .inr ⟨answer, child, mem_cons_self, hchild, rfl⟩
    | _ => simp_all

/-- What becomes of an exception once it is taken from the channel. -/
theorem run_exception {p : Poll} {exceptionType request}
    (hpoint : c.point = .receiving p) (hwithin : ∀ e, .returned e ∉ rest)
    (h : c.run (.tryRecv (.event (.exception exceptionType request)) :: rest) = some c')
    (hreturn : c'.point = .returning event) :
    (c.ChildSilent rest ∧ event = some (.crash exceptionType request)) ∨
      (¬ c.ChildSilent rest ∧
        ((∃ reason, event = some (.childTerminated reason)) ∨
          ∃ message, event = some (.monitorFailure message))) := by
  obtain ⟨mid, hmove, hrest⟩ := run_cons h
  cases hmove with
  | @tryRecv q _ hother =>
    rw [hpoint] at hother
    cases hother
    cases hpending : c.pendingChildTermination with
    | some reason =>
      have hmid : (c.afterReceive p
          (Received.event (.exception exceptionType request)).toMonitor).point =
            .returning (some (.childTerminated reason)) := by
        rw [afterReceive, hpending]
        rfl
      obtain ⟨rfl, rfl⟩ := run_returning hmid hwithin hrest
      rw [hmid] at hreturn
      cases hreturn
      right
      refine ⟨fun hsilent => ?_, .inl ⟨reason, rfl⟩⟩
      rw [hsilent.1] at hpending
      cases hpending
    | none =>
      have hmid : (c.afterReceive p
          (Received.event (.exception exceptionType request)).toMonitor).point =
            .reaping p (some (.crash exceptionType request)) := by
        rw [afterReceive, hpending]
        rfl
      rcases run_reaping hmid hwithin hrest hreturn with
        ⟨hsilent, hevent⟩ | ⟨answer, child, hmem, hchild, hevent⟩
      · exact .inl ⟨⟨hpending, hsilent⟩, hevent⟩
      right
      refine ⟨fun hsilent => ?_, ?_⟩
      · have hnone := hsilent.2 answer hmem
        rw [hchild] at hnone
        cases hnone
      · rw [hevent]
        exact event_of_waitAnswer hchild

end Source

/-! ## What the loop makes of it -/

/-- The effects of a round that takes a request for a crash: captured as one if
crashes are reported, answered, and not reported as a termination. -/
structure HandledAsCrash (ctx : Context) (request : Nat) (block : List Effect) : Prop where
  replied : ∃ error, .reply request error ∈ block
  captured : .capture .crash none ∈ block ↔ ctx.reportEnabled .crash = true
  unterminated : ∀ reportType, .finalizeTermination reportType ∉ block

theorem handledAsCrash_of_crash {ctx exceptionType request block result}
    (h : Handles ctx (some (.crash exceptionType request)) block result)
    (hsub : subscribed exceptionType = true) : HandledAsCrash ctx request block := by
  cases h with
  | ignored hnot | rejectionFailed hnot => rw [hsub] at hnot; cases hnot
  | @crash _ _ _ error captured _ _ _ =>
    refine ⟨⟨error, by simp⟩, ?_, ?_⟩
    · cases ctx.reportEnabled .crash <;> cases captured <;> simp
    · intro reportType
      cases ctx.reportEnabled .crash <;> cases captured <;> simp
  | other hevent => exact absurd rfl (hevent exceptionType request)

theorem not_handledAsCrash_of_other {ctx event request block result}
    (h : Handles ctx event block result)
    (hne : ∀ exceptionType request, event ≠ some (.crash exceptionType request)) :
    ¬ HandledAsCrash ctx request block := by
  intro hcrash
  obtain ⟨error, hreply⟩ := hcrash.replied
  cases h with
  | other _ hblock => exact hblock _ hreply
  | _ => exact hne _ _ rfl

/-- **Whether an exception is the incident.** Once the source has taken a
subscribed exception from the channel, the loop handles it as a crash exactly
if `waitpid` had nothing to report in the same call. -/
theorem exception_primary_iff (env : Env) (ctx : Context) (s : LoopState) (c c' : Source) (p : Poll)
    (exceptionType request : Nat) (rest : List SourceCall) (hreceiving : c.point = .receiving p)
    (hsub : subscribed exceptionType = true) (hwithin : ∀ e, .returned e ∉ rest)
    (hrun : c.run (.tryRecv (.event (.exception exceptionType request)) :: rest) = some c')
    (hreturn : c'.point = .returning (env.wait s.waits)) :
    ∃ block, (iteration env ctx s).1.effects = block.reverse ++ s.effects ∧
      (HandledAsCrash ctx request block ↔ c.ChildSilent rest) := by
  obtain ⟨block, heffects, -, hhandles⟩ := iteration_handles env ctx s
  refine ⟨block, heffects, ?_⟩
  rcases Source.run_exception hreceiving hwithin hrun hreturn with
    ⟨hsilent, hevent⟩ | ⟨hready, hevent⟩
  · rw [hevent] at hhandles
    exact iff_of_true (handledAsCrash_of_crash hhandles hsub) hsilent
  refine iff_of_false (not_handledAsCrash_of_other hhandles ?_) hready
  intro _ _ heq
  rw [heq] at hevent
  rcases hevent with ⟨_, hevent⟩ | ⟨_, hevent⟩
  · cases hevent
  · cases hevent

/-- Every report type is enabled; there is no shared memory. -/
def plainContext : Context := ⟨fun _ => true, false, none⟩

/-- Every wait returns this event, and nothing fails. -/
def constantEnv (event : Option MonitorEvent) : Env :=
  ⟨fun _ => 0, fun _ => none, fun _ => event, fun _ => true, fun _ => none, fun _ => none⟩

/-- An exception is taken, and `waitpid` already knows the child was killed by
signal 11: the incident is reported as a signal and the request is dropped
unanswered. -/
theorem exception_lost_to_wait_status : ((⟨true, none, [], .resting⟩ : Source).run
        [.waitUntil none, .readWake .wouldBlock, .tryRecv (.event (.exception 1 7)),
          .waitpid (.changed (.signaled 11 true) 0)]).map (·.point) =
      some (.returning (some (.childTerminated (.signaled 11 true 0)))) ∧
    (iteration (constantEnv (some (.childTerminated (.signaled 11 true 0)))) plainContext
        (start (constantEnv none) plainContext)).1.effects =
      [.shutdownBackground, .shutdownCapture, .finalizeTermination .signalFailure, .wait none] := by
  decide

/-- With the child alive the same exception is captured, answered and ends the
loop as a crash. -/
theorem exception_primary_iff_alive :
    ∃ block, (iteration (constantEnv (some (.crash 1 7))) plainContext
        (start (constantEnv none) plainContext)).1.effects = block.reverse ∧
      HandledAsCrash plainContext 7 block := by
  obtain ⟨block, heffects, hiff⟩ := exception_primary_iff (constantEnv (some (.crash 1 7)))
    plainContext (start (constantEnv none) plainContext) ⟨true, none, [], .receiving ⟨none, false⟩⟩
    ⟨true, none, [], .returning (some (.crash 1 7))⟩ ⟨none, false⟩ 1 7
    [.waitpid (.changed .stillAlive 0)] rfl rfl (by simp) rfl rfl
  rw [show (start (constantEnv none) plainContext).effects = [] from rfl, append_nil] at heffects
  refine ⟨block, heffects, hiff.mpr ⟨rfl, ?_⟩⟩
  intro answer hmem
  cases mem_singleton.mp hmem
  rfl

end CrashMonitor.EventLoop
