import CrashMonitor.Exceptions.Rights

/-!
# The exception listener

The listener thread receives one message after the other. A well-formed
request goes to the channel with its owner, and the consumer answers and
drops it; a malformed one is rejected on the spot. The owner of every
message that does not reach the channel is dropped at the end of its
iteration.
-/

namespace CrashMonitor.Exceptions

open KernelCall List

structure ExceptionInfo where
  receivedAt : Nat
  exceptionType : UInt32
  code : UInt64
  subcode : UInt64
  rawCodes : List UInt64
  request : ReceivedMachMessage

inductive ExceptionListenerEvent where
  | exception (info : ExceptionInfo)
  | fatal (message : String)

/-- What one iteration meets: the outcome of the blocking receive, the time
after it, the kernel's answer to a reply, and whether the receiving end of the
channel still exists. -/
structure Arrival where
  message : Except MachError MachMessageBuffer
  receivedAt : Nat
  send : SendReply
  receiverAlive : Bool

/-- What one iteration leaves: the message's owner, still alive only if it
went to the channel, the events the channel accepted, and whether the loop
goes on. -/
structure Iteration where
  owner : Option ReceivedMachMessage
  sent : List ExceptionListenerEvent
  continues : Bool

/-- `tx.send`: nothing arrives once the receiver is gone. -/
def transmit (receiverAlive : Bool) (event : ExceptionListenerEvent) :
    List ExceptionListenerEvent :=
  if receiverAlive then [event] else []

variable (arrival : Arrival) (request : ReceivedMachMessage)

def endWithFatal (owner : Option ReceivedMachMessage) (message : String) : Iteration :=
  ⟨owner, transmit arrival.receiverAlive (.fatal message), false⟩

def rejectIteration (e : ExceptionMessageError) : Iteration :=
  let rejection := request.rejectMalformedMessageWith arrival.send
  let owner := some rejection.2.destroyOnce
  match rejection.1 with
  | .ok true => ⟨owner, [], true⟩
  | .ok false => endWithFatal arrival owner
      s!"malformed Mach exception request has no safe reply identity: {e.text}"
  | .error replyError => endWithFatal arrival owner
      s!"failed to reject malformed Mach exception request: {replyError.text}"

/-- The event of a well-formed request, which takes its owner along. -/
def exceptionInfo (parsed : ParsedExceptionMessage) : ExceptionInfo where
  receivedAt := arrival.receivedAt
  exceptionType := parsed.exceptionType
  code := parsed.code
  subcode := parsed.subcode
  rawCodes := parsed.rawCodes
  request := request.setValidatedDescriptorPorts parsed.threadPort parsed.taskPort

def forwardIteration (parsed : ParsedExceptionMessage) : Iteration :=
  let info := exceptionInfo arrival request parsed
  if arrival.receiverAlive then ⟨some info.request, [.exception info], true⟩
  -- the failed send hands the event back, and its owner is dropped with it
  else ⟨some info.request.destroyOnce, [], false⟩

def listenerIteration : Iteration :=
  match arrival.message with
  | .error e => endWithFatal arrival none s!"mach_msg receive failed: {e.text}"
  | .ok buffer =>
    let request := .received buffer
    match parseExceptionMessage request.messageBytes with
    | .error e => rejectIteration arrival request e
    | .ok parsed => forwardIteration arrival request parsed

def exceptionListener : List Arrival → List Iteration
  | [] => []
  | arrival :: arrivals =>
    let iteration := listenerIteration arrival
    iteration :: if iteration.continues then exceptionListener arrivals else []

/-- What becomes of a forwarded request: the consumer answers it any number
of times and drops it. -/
def ReceivedMachMessage.consumed (attempts : List SendReply) : ReceivedMachMessage :=
  (attempts.foldl (fun request send => (request.sendDeferredReply send).2) request).destroyOnce

/-! ## Rights along a message's life -/

section Fate

variable {D : Type} (describe : List UInt8 → List D) (buffer : MachMessageBuffer)

/-- The ways an iteration can end for a received message. -/
inductive Fate (receiverAlive : Bool) : Iteration → Prop where
  /-- Forwarded once; the rights are settled however often the consumer
  answers. -/
  | forwarded (info : ExceptionInfo) (unanswered : info.request.calls = [])
      (settled : ∀ attempts, Settled describe buffer (info.request.consumed attempts).calls) :
      Fate receiverAlive ⟨some info.request, [.exception info], true⟩
  | rejected (request : ReceivedMachMessage) (reply : ExceptionReply)
      (answered : request.calls.flatMap sentReply = [reply]) (failure : reply.retCode = kernFailure)
      (settled : Settled describe buffer request.calls) :
      Fate receiverAlive ⟨some request, [], true⟩
  | fatal (request : ReceivedMachMessage) (message : String)
      (unanswered : request.calls.flatMap sentReply = [])
      (settled : Settled describe buffer request.calls) :
      Fate receiverAlive ⟨some request, [.fatal message], false⟩
  /-- There was nobody left to send to. -/
  | refused (request : ReceivedMachMessage) (gone : receiverAlive = false)
      (unanswered : request.calls.flatMap sentReply = [])
      (settled : Settled describe buffer request.calls) :
      Fate receiverAlive ⟨some request, [], false⟩

/-- An iteration that received nothing ends the listener, and every message
received has one of the fates above. -/
def Handled (arrival : Arrival) (iteration : Iteration) : Prop :=
  match arrival.message with
  | .error _ => iteration.owner = none ∧ iteration.continues = false
  | .ok buffer => Fate describe buffer arrival.receiverAlive iteration

end Fate

section Proofs

variable {D : Type} {describe : List UInt8 → List D} {buffer : MachMessageBuffer}
  {request : ReceivedMachMessage} {arrival : Arrival}

theorem Accounted.consumed (h : Accounted describe buffer request) (attempts : List SendReply) :
    Settled describe buffer (request.consumed attempts).calls := by
  induction attempts generalizing request with
  | nil => exact h.destroyOnce
  | cons send attempts ih => exact ih (h.sendDeferredReply send)

open ReceivedMachMessage

theorem sentReply_destroyOnce (request : ReceivedMachMessage) :
    request.destroyOnce.calls.flatMap sentReply = request.calls.flatMap sentReply := by
  unfold destroyOnce
  split
  · simp [sentReply]
  · rfl

/-- A rejection answers the request exactly if it reports that it did. -/
theorem sentReply_rejectMalformedMessageWith (hfresh : request.calls = []) (send : SendReply) :
    ((request.rejectMalformedMessageWith send).1 = .ok true ∧
      ∃ reply, (request.rejectMalformedMessageWith send).2.calls.flatMap sentReply =
        [reply] ∧ reply.retCode = kernFailure) ∨
    ((request.rejectMalformedMessageWith send).1 ≠ .ok true ∧
      (request.rejectMalformedMessageWith send).2.calls.flatMap sentReply = []) := by
  unfold rejectMalformedMessageWith
  rw [failureReplyForMessage_allBytes]
  generalize hbuilt : buildExceptionReply (storedHeader request.allBytes) = result
  cases result with
  | error e => exact .inr ⟨by simp [Except.toOption], by simp [Except.toOption, hfresh]⟩
  | ok reply =>
    simp only [Except.toOption, sendOwnedReplyWith]
    cases hsend : send reply with
    | error e => exact .inr ⟨by simp [Except.map], by simp [hfresh, sentReply]⟩
    | ok u =>
      exact .inl ⟨rfl, reply, by simp [hfresh, sentReply], (buildExceptionReply_eq_ok hbuilt).2.2.2⟩

theorem fate_endWithFatal {message} (unanswered : request.calls.flatMap sentReply = [])
    (settled : Settled describe buffer request.calls) : Fate describe buffer arrival.receiverAlive
      (endWithFatal arrival (some request) message) := by
  unfold endWithFatal transmit
  cases halive : arrival.receiverAlive with
  | true => exact .fatal request message unanswered settled
  | false => exact .refused request rfl unanswered settled

theorem fate_rejectIteration (h : Accounted describe buffer request)
    (hfresh : request.calls = []) {e} :
    Fate describe buffer arrival.receiverAlive (rejectIteration arrival request e) := by
  have hsettled := (h.rejectMalformedMessageWith arrival.send).destroyOnce
  have hsent := sentReply_rejectMalformedMessageWith hfresh arrival.send
  rw [← sentReply_destroyOnce] at hsent
  unfold rejectIteration
  generalize request.rejectMalformedMessageWith arrival.send = rejection at hsettled hsent
  obtain ⟨result, request'⟩ := rejection
  rcases hsent with ⟨hok, reply, hone, hfailure⟩ | ⟨hnot, hnone⟩
  · cases hok
    exact .rejected request'.destroyOnce reply hone hfailure hsettled
  rcases result with replyError | ⟨_ | _⟩
  · exact fate_endWithFatal hnone hsettled
  · exact fate_endWithFatal hnone hsettled
  · exact absurd rfl hnot

theorem fate_forwardIteration (h : Accounted describe buffer request)
    (hfresh : request.calls = []) {parsed} :
    Fate describe buffer arrival.receiverAlive (forwardIteration arrival request parsed) := by
  have hvalidated := h.setValidatedDescriptorPorts parsed.threadPort parsed.taskPort
  unfold forwardIteration
  cases halive : arrival.receiverAlive with
  | true => exact .forwarded (exceptionInfo arrival request parsed) hfresh hvalidated.consumed
  | false =>
    refine .refused _ rfl ?_ hvalidated.destroyOnce
    rw [sentReply_destroyOnce]
    simp [exceptionInfo, setValidatedDescriptorPorts, hfresh]

theorem handled_listenerIteration {arrival} :
    Handled describe arrival (listenerIteration arrival) := by
  unfold Handled listenerIteration
  cases arrival.message with
  | error e => exact ⟨rfl, rfl⟩
  | ok buffer =>
    dsimp only
    split
    · exact fate_rejectIteration .received rfl
    · exact fate_forwardIteration .received rfl

/-- Every message received, in every run, ends in one of four ways, and in
each the reply right is disposed of exactly once, by a successful send or by
the final destroy, the voucher and the descriptor rights are released exactly
once, and at most one reply is sent. Only the last iteration ends the
listener. -/
theorem mach_rights_conserved (describe : List UInt8 → List D) (arrivals : List Arrival) :
    List.Forall₂ (Handled describe)
      (arrivals.take (exceptionListener arrivals).length) (exceptionListener arrivals) ∧
    ∀ iteration ∈ (exceptionListener arrivals).dropLast, iteration.continues = true := by
  induction arrivals with
  | nil => exact ⟨.nil, by simp [exceptionListener]⟩
  | cons arrival arrivals ih =>
    have hhead : Handled describe arrival (listenerIteration arrival) := handled_listenerIteration
    unfold exceptionListener
    dsimp only
    split
    · next hcontinues =>
        refine ⟨.cons hhead ih.1, ?_⟩
        intro iteration hmem
        cases hrest : exceptionListener arrivals with
        | nil => simp [hrest] at hmem
        | cons next rest =>
          rw [hrest] at ih
          simp only [hrest, dropLast_cons_cons, mem_cons] at hmem
          rcases hmem with rfl | hmem
          · exact hcontinues
          · exact ih.2 iteration hmem
    · exact ⟨.cons hhead .nil, by simp⟩

/-! ## A request nobody is left to take -/

/-- The packed bytes of a request of exception type 1 without codes or thread
state. -/
def plainRequestBytes : List UInt8 :=
  -- bits, size, remote, local and voucher port, message id
  [0x12, 0, 0, 0x80, 76, 0, 0, 0, 99, 0, 0, 0, 0, 0, 0, 0, 0, 0, 0, 0, 0x67, 0x09, 0, 0] ++
  -- two descriptors, for the thread and the task
  [2, 0, 0, 0, 42, 0, 0, 0, 0, 0, 0, 0, 0, 0, 17, 0, 43, 0, 0, 0, 0, 0, 0, 0, 0, 0, 17, 0] ++
  -- NDR record, exception type, code count, flavor, state count
  [0, 0, 0, 0, 1, 0, 0, 0, 1, 0, 0, 0, 0, 0, 0, 0, 6, 0, 0, 0, 0, 0, 0, 0]

def plainRequest : MachMessageBuffer where
  bytes := plainRequestBytes ++ List.replicate (messageBufferCapacity - 76) 0
  length_bytes := by
    rw [length_append, length_replicate]
    rfl

/-- A well-formed request that arrives after the receiver went away is
neither forwarded nor answered, and the listener ends without a `Fatal`
event. -/
theorem request_refused_by_closed_channel :
    ∃ request, exceptionListener [⟨.ok plainRequest, 0, fun _ => .ok (), false⟩] =
        [⟨some request, [], false⟩] ∧ request.calls.flatMap sentReply = [] := by
  have hsize : (storedHeader plainRequest.bytes).msghSize.toNat = 76 := by decide +kernel
  have hbytes : (received plainRequest).messageBytes = plainRequestBytes := by
    have hfits : machHeaderSize ≤ 76 ∧ 76 ≤ plainRequest.bytes.length := by
      rw [plainRequest.length_bytes]
      decide
    show plainRequest.messageBytes (storedHeader plainRequest.bytes).msghSize.toNat = _
    rw [hsize, MachMessageBuffer.messageBytes, if_pos hfits]
    exact take_left' rfl
  have hparsed : parseExceptionMessage plainRequestBytes =
      .ok ⟨⟨0x80000012, 76, 99, 0, 0, 2407⟩, 42, 43, 1, []⟩ := by
    decide +kernel
  rw [← hbytes] at hparsed
  refine ⟨((received plainRequest).setValidatedDescriptorPorts 42 43).destroyOnce, ?_, ?_⟩
  · simp only [exceptionListener, listenerIteration, hparsed]
    rfl
  · rw [sentReply_destroyOnce]
    rfl

end Proofs

end CrashMonitor.Exceptions
