import CrashMonitor.Exceptions.Message

/-!
# The owner of a received message

`ReceivedMachMessage` owns every right that came with one message
(`platform/macos/ffi/exceptions.rs`). A reply that was sent moves the reply
right away, and the owner then erases it from the header in its buffer; the
drop of the owner hands the buffer, as it stands, to `mach_msg_destroy`.

The kernel calls made for a message are kept in order, so that what became
of each right can be read off the list.
-/

namespace CrashMonitor.Exceptions

open Bytes Slice

/-! ## Rights named by a message -/

def machMsghBitsVoucherMask : UInt32 := 0x1f0000
def machMsgTypeMoveReceive : UInt32 := 16

/-- A port right together with the disposition it is named under. -/
structure PortRight where
  port : MachPort
  disposition : UInt32
deriving Repr, DecidableEq

/-- The right a port field stands for: a live name under one of the
dispositions that transfer a right to the receiver. -/
def portRight (port : MachPort) (disposition : UInt32) : Option PortRight :=
  if port ≠ machPortNull ∧ port ≠ machPortDead ∧
      (disposition = machMsgTypeMoveReceive ∨ disposition = machMsgTypeMoveSend ∨
        disposition = machMsgTypeMoveSendOnce) then
    some ⟨port, disposition⟩
  else none

def replyRight (header : MachMsgHeader) : Option PortRight :=
  portRight header.msghRemotePort (header.msghBits &&& machMsghBitsRemoteMask)

def voucherRight (header : MachMsgHeader) : Option PortRight :=
  portRight header.msghVoucherPort ((header.msghBits &&& machMsghBitsVoucherMask) >>> 16)

/-- What the descriptors of a complex message carry. `describe` stands for
the decoding of the body, of which only its bytes matter here. -/
def bodyRights {D : Type} (describe : List UInt8 → List D) (bytes : List UInt8) : List D :=
  if (storedHeader bytes).msghBits &&& machMsghBitsComplex ≠ 0 then
    describe (bytes.drop bodyOffset)
  else []

/-! ## The owner -/

def messageBufferCapacity : Nat := 8 * 1024

structure MachMessageBuffer where
  bytes : List UInt8
  length_bytes : bytes.length = messageBufferCapacity
deriving DecidableEq

/-- The bytes a declared size stands for; a size that cannot be right leaves
the whole buffer, so that the header stays readable. -/
def MachMessageBuffer.messageBytes (buffer : MachMessageBuffer) (declaredSize : Nat) : List UInt8 :=
  if machHeaderSize ≤ declaredSize ∧ declaredSize ≤ buffer.bytes.length then
    buffer.bytes.take declaredSize
  else buffer.bytes

structure MachError where
  function : String
  kernReturn : Int
deriving Repr, DecidableEq

/-- The `Display` text of an error. -/
def MachError.text (e : MachError) : String := s!"{e.function} failed: kr={e.kernReturn}"

/-- The kernel's answer to a reply. -/
abbrev SendReply := ExceptionReply → Except MachError Unit

inductive KernelCall where
  | send (reply : ExceptionReply) (result : Except MachError Unit)
  | destroy (bytes : List UInt8)

/-- A received message. `calls` collects the kernel calls made for it. -/
structure ReceivedMachMessage where
  buffer : MachMessageBuffer
  receivedSize : Nat
  threadPort : Option MachPort
  taskPort : Option MachPort
  armed : Bool
  calls : List KernelCall

namespace ReceivedMachMessage

/-- The owner of a successful receive: the size is the header's own. -/
def received (buffer : MachMessageBuffer) : ReceivedMachMessage where
  buffer := buffer
  receivedSize := (storedHeader buffer.bytes).msghSize.toNat
  threadPort := none
  taskPort := none
  armed := true
  calls := []

variable (request : ReceivedMachMessage)

def messageBytes : List UInt8 := request.buffer.messageBytes request.receivedSize

def allBytes : List UInt8 := request.buffer.bytes

def called (call : KernelCall) : ReceivedMachMessage :=
  { request with calls := request.calls ++ [call] }

def setValidatedDescriptorPorts (threadPort taskPort : MachPort) : ReceivedMachMessage :=
  { request with threadPort := some threadPort, taskPort := some taskPort }

end ReceivedMachMessage

/-- The bits of a header whose reply right is gone. -/
def consumedBits (bytes : List UInt8) : UInt32 :=
  (storedHeader bytes).msghBits &&& ~~~machMsghBitsRemoteMask

/-- The header fields are rewritten in place; the rest of the buffer, and
with it every descriptor, stays. -/
def consumedBytes (bytes : List UInt8) : List UInt8 :=
  overwrite (overwrite bytes 0 (toLE 4 (consumedBits bytes).toNat)) 8 (toLE 4 machPortNull.toNat)

theorem length_consumedBytes {bytes} (h : bytes.length = messageBufferCapacity) :
    (consumedBytes bytes).length = messageBufferCapacity := by
  unfold messageBufferCapacity at h
  have hfirst : (overwrite bytes 0 (toLE 4 (consumedBits bytes).toNat)).length = bytes.length :=
    length_overwrite (by simp; omega)
  rw [consumedBytes, length_overwrite (by simp [hfirst]; omega), hfirst, h, messageBufferCapacity]

namespace ReceivedMachMessage

section

variable (request : ReceivedMachMessage) (send : SendReply)

def markReplyRightConsumed : ReceivedMachMessage := { request with
    buffer := ⟨consumedBytes request.buffer.bytes,
      length_consumedBytes request.buffer.length_bytes⟩ }

/-- `destroy_once`, which is all that `Drop` does. -/
def destroyOnce : ReceivedMachMessage :=
  if request.armed then { request.called (.destroy request.allBytes) with armed := false }
  else request

/-! ## Replies -/

/-- The reply right is erased only after a successful send. -/
def sendOwnedReplyWith (reply : ExceptionReply)
    (send : SendReply) : Except MachError Unit × ReceivedMachMessage :=
  match send reply with
  | .error e => (.error e, request.called (.send reply (.error e)))
  | .ok () => (.ok (), (request.called (.send reply (.ok ()))).markReplyRightConsumed)

def rejectMalformedMessageWith : Except MachError Bool × ReceivedMachMessage :=
  match failureReplyForMessage request.allBytes with
  | none => (.ok false, request)
  | some reply =>
    let sent := request.sendOwnedReplyWith reply send
    (sent.1.map fun _ => true, sent.2)

def unsafeReplyIdentityError : MachError := ⟨"send_deferred_reply(unsafe reply identity)", -1⟩

def sendDeferredReply : Except MachError Unit × ReceivedMachMessage :=
  match messageHeader request.allBytes with
  | .error _ => (.error unsafeReplyIdentityError, request)
  | .ok header =>
    match buildExceptionReply header with
    | .error _ => (.error unsafeReplyIdentityError, request)
    | .ok reply => request.sendOwnedReplyWith reply send

end

variable (request : ReceivedMachMessage) (call : KernelCall)

@[simp] theorem called_calls : (request.called call).calls = request.calls ++ [call] := rfl

@[simp] theorem called_allBytes : (request.called call).allBytes = request.allBytes := rfl

@[simp] theorem markReplyRightConsumed_calls :
    request.markReplyRightConsumed.calls = request.calls := rfl

@[simp] theorem markReplyRightConsumed_allBytes :
    request.markReplyRightConsumed.allBytes = consumedBytes request.allBytes := rfl

end ReceivedMachMessage

/-! ## Erasing the reply right -/

section Consumed

variable {bytes : List UInt8}

/-- Only the bits and the remote port of the header change. -/
theorem storedHeader_consumedBytes (h : bytes.length = messageBufferCapacity) :
    storedHeader (consumedBytes bytes) = { storedHeader bytes with
        msghBits := consumedBits bytes, msghRemotePort := machPortNull } := by
  unfold messageBufferCapacity at h
  have hlen : (overwrite bytes 0 (toLE 4 (consumedBits bytes).toNat)).length = bytes.length :=
    length_overwrite (by simp; omega)
  -- the first word is the one written first, the third the one written last
  have hbits : ((consumedBytes bytes).drop 0).take 4 = toLE 4 (consumedBits bytes).toNat := by
    rw [consumedBytes, take_drop_overwrite_before (by omega) (by omega)]
    simpa using take_drop_overwrite_self (toLE 4 (consumedBits bytes).toNat)
      (Nat.zero_le bytes.length)
  have hport : ((consumedBytes bytes).drop 8).take 4 = toLE 4 machPortNull.toNat := by
    have hfits : 8 ≤ (overwrite bytes 0 (toLE 4 (consumedBits bytes).toNat)).length := by omega
    simpa [consumedBytes] using take_drop_overwrite_self (toLE 4 machPortNull.toNat) hfits
  have hsize : ((consumedBytes bytes).drop 4).take 4 = (bytes.drop 4).take 4 := by
    rw [consumedBytes, take_drop_overwrite_before (by omega) (by omega),
      drop_overwrite_after (by simp) (by omega)]
  have hafter : ∀ k, 12 ≤ k → (consumedBytes bytes).drop k = bytes.drop k := by
    intro k hk
    rw [consumedBytes, drop_overwrite_after (by simp; omega) (by omega),
      drop_overwrite_after (by simp; omega) (by omega)]
  simp only [storedHeader, hbits, hport, hsize, hafter 12 (by omega),
    hafter 16 (by omega), hafter 20 (by omega), u32FromNeBytes_toLE]

theorem drop_consumedBytes (h : bytes.length = messageBufferCapacity) :
    (consumedBytes bytes).drop bodyOffset = bytes.drop bodyOffset := by
  unfold messageBufferCapacity at h
  have hlen : (overwrite bytes 0 (toLE 4 (consumedBits bytes).toNat)).length = bytes.length :=
    length_overwrite (by simp; omega)
  rw [consumedBytes, drop_overwrite_after (by simp [bodyOffset, machHeaderSize]) (by omega),
    drop_overwrite_after (by simp [bodyOffset, machHeaderSize]) (by omega)]

/-- Clearing the remote disposition keeps every bit outside its mask. -/
theorem and_consumed {bits mask} (h : ~~~machMsghBitsRemoteMask &&& mask = mask) :
    (bits &&& ~~~machMsghBitsRemoteMask) &&& mask = bits &&& mask := by
  rw [UInt32.and_assoc, h]

theorem replyRight_consumed (h : bytes.length = messageBufferCapacity) :
    replyRight (storedHeader (consumedBytes bytes)) = none := by
  rw [storedHeader_consumedBytes h, replyRight, portRight]
  simp

theorem voucherRight_consumed (h : bytes.length = messageBufferCapacity) :
    voucherRight (storedHeader (consumedBytes bytes)) = voucherRight (storedHeader bytes) := by
  rw [storedHeader_consumedBytes h, voucherRight, voucherRight]
  simp only [consumedBits]
  rw [and_consumed (by decide)]

theorem bodyRights_consumed {D : Type} {describe : List UInt8 → List D}
    (h : bytes.length = messageBufferCapacity) :
    bodyRights describe (consumedBytes bytes) = bodyRights describe bytes := by
  have hcomplex : (storedHeader (consumedBytes bytes)).msghBits &&& machMsghBitsComplex =
      (storedHeader bytes).msghBits &&& machMsghBitsComplex := by
    rw [storedHeader_consumedBytes h]
    exact and_consumed (by decide)
  simp only [bodyRights, drop_consumedBytes h, hcomplex]

/-- A safe reply identity names a right. -/
theorem replyRight_of_safe {header} (h : hasSafeReplyIdentity header = true) :
    replyRight header = some
      ⟨header.msghRemotePort, header.msghBits &&& machMsghBitsRemoteMask⟩ := by
  simp only [hasSafeReplyIdentity, Bool.and_eq_true, Bool.or_eq_true, bne_iff_ne, beq_iff_eq] at h
  obtain ⟨⟨hdisposition, hnull, hdead⟩, -⟩ := h
  rw [replyRight, portRight, if_pos ⟨hnull, hdead, .inr hdisposition⟩]

/-- A reply built from a header moves the right that the header names. -/
theorem replyRight_of_buildExceptionReply {header reply}
    (h : buildExceptionReply header = .ok reply) :
    replyRight reply.header = replyRight header ∧ (replyRight header).isSome := by
  obtain ⟨hsafe, hport, hbits, -⟩ := buildExceptionReply_eq_ok h
  have hidem : header.msghBits &&& machMsghBitsRemoteMask &&& machMsghBitsRemoteMask =
      header.msghBits &&& machMsghBitsRemoteMask := by
    rw [UInt32.and_assoc, UInt32.and_self]
  refine ⟨?_, by simp [replyRight_of_safe hsafe]⟩
  rw [replyRight, hport, hbits, hidem, replyRight]

end Consumed

/-! ## Accounts -/

namespace KernelCall

/-- The reply right a call disposes of: a successful send moves it away, a
destroy releases what the header still names. -/
def disposedReply : KernelCall → List PortRight
  | .send reply (.ok ()) => (replyRight reply.header).toList
  | .send _ (.error _) => []
  | .destroy bytes => (replyRight (storedHeader bytes)).toList

def releasedVoucher : KernelCall → List PortRight
  | .send _ _ => []
  | .destroy bytes => (voucherRight (storedHeader bytes)).toList

def releasedBody {D : Type} (describe : List UInt8 → List D) : KernelCall → List D
  | .send _ _ => []
  | .destroy bytes => bodyRights describe bytes

/-- The replies that reached the faulting thread. -/
def sentReply : KernelCall → List ExceptionReply
  | .send reply (.ok ()) => [reply]
  | .send _ (.error _) => []
  | .destroy _ => []

def destroyed : KernelCall → List (List UInt8)
  | .send _ _ => []
  | .destroy bytes => [bytes]

end KernelCall

open KernelCall

section Accounts

variable {D : Type} (describe : List UInt8 → List D) (buffer : MachMessageBuffer)

/-- The accounts of a message whose owner lives: what the calls so far
disposed of and what the buffer still names make up what was received. -/
structure Accounted (request : ReceivedMachMessage) : Prop where
  armed : request.armed = true
  reply : request.calls.flatMap disposedReply ++
      (replyRight (storedHeader request.allBytes)).toList =
    (replyRight (storedHeader buffer.bytes)).toList
  voucher : voucherRight (storedHeader request.allBytes) = voucherRight (storedHeader buffer.bytes)
  body : bodyRights describe request.allBytes = bodyRights describe buffer.bytes
  undestroyed : request.calls.flatMap destroyed = []
  /-- A sent reply left no reply right behind. -/
  replies : request.calls.flatMap sentReply = [] ∨
    ∃ reply, request.calls.flatMap sentReply = [reply] ∧ reply.retCode = kernFailure ∧
      replyRight (storedHeader request.allBytes) = none

/-- The accounts of a message whose owner was dropped. -/
structure Settled (calls : List KernelCall) : Prop where
  /-- The reply right was disposed of exactly once. -/
  reply : calls.flatMap disposedReply = (replyRight (storedHeader buffer.bytes)).toList
  voucher : calls.flatMap releasedVoucher = (voucherRight (storedHeader buffer.bytes)).toList
  /-- The descriptor rights were released exactly once. -/
  body : calls.flatMap (releasedBody describe) = bodyRights describe buffer.bytes
  destroyed : ∃ bytes, calls.flatMap destroyed = [bytes]
  replies : (calls.flatMap sentReply).length ≤ 1

end Accounts

section Steps

variable {D : Type} {describe : List UInt8 → List D} {buffer : MachMessageBuffer}
  {request : ReceivedMachMessage}

/-- An account that only a destroy enters is empty before the destroy. -/
theorem flatMap_of_undestroyed {β : Type} {f : KernelCall → List β}
    (hf : ∀ reply result, f (.send reply result) = []) {calls : List KernelCall}
    (h : calls.flatMap destroyed = []) : calls.flatMap f = [] := by
  induction calls with
  | nil => rfl
  | cons call calls ih =>
    cases call with
    | send reply result =>
      rw [List.flatMap_cons, hf, List.nil_append]
      exact ih h
    | destroy bytes => cases h

theorem Accounted.received : Accounted describe buffer (.received buffer) where
  armed := rfl
  reply := rfl
  voucher := rfl
  body := rfl
  undestroyed := rfl
  replies := .inl rfl

theorem Accounted.setValidatedDescriptorPorts (h : Accounted describe buffer request)
    (threadPort taskPort : MachPort) :
    Accounted describe buffer (request.setValidatedDescriptorPorts threadPort taskPort) where
  armed := h.armed
  reply := h.reply
  voucher := h.voucher
  body := h.body
  undestroyed := h.undestroyed
  replies := h.replies

/-- A failed send disposes of nothing. -/
theorem Accounted.sendFailed (h : Accounted describe buffer request) {reply e} :
    Accounted describe buffer (request.called (.send reply (.error e))) where
  armed := h.armed
  reply := by simpa [disposedReply] using h.reply
  voucher := h.voucher
  body := h.body
  undestroyed := by simpa [destroyed] using h.undestroyed
  replies := by simpa [sentReply] using h.replies

section

variable {reply : ExceptionReply} (h : Accounted describe buffer request)
  (hbuilt : buildExceptionReply (storedHeader request.allBytes) = .ok reply)
include h hbuilt

/-- A successful send disposes of exactly the right that the owner then
erases. -/
theorem Accounted.replied :
    Accounted describe buffer (request.called (.send reply (.ok ()))).markReplyRightConsumed := by
  obtain ⟨hmoved, hheld⟩ := replyRight_of_buildExceptionReply hbuilt
  have hlen : request.allBytes.length = messageBufferCapacity := request.buffer.length_bytes
  have hgone : replyRight (storedHeader (consumedBytes request.allBytes)) = none :=
    replyRight_consumed hlen
  -- an earlier reply would have left no identity to build this one from
  have hnone : request.calls.flatMap sentReply = [] := by
    rcases h.replies with hnone | ⟨_, _, _, herased⟩
    · exact hnone
    · rw [herased] at hheld
      cases hheld
  exact {
    armed := h.armed
    reply := by
      rw [← h.reply]
      simp [hgone, disposedReply, hmoved]
    voucher := (voucherRight_consumed hlen).trans h.voucher
    body := (bodyRights_consumed hlen).trans h.body
    undestroyed := by simpa [destroyed] using h.undestroyed
    replies := by
      refine .inr ⟨reply, ?_, (buildExceptionReply_eq_ok hbuilt).2.2.2, hgone⟩
      simpa [sentReply] using hnone }

theorem Accounted.sendOwnedReplyWith (send : SendReply) :
    Accounted describe buffer (request.sendOwnedReplyWith reply send).2 := by
  unfold ReceivedMachMessage.sendOwnedReplyWith
  cases send reply with
  | error e => exact h.sendFailed
  | ok u => exact h.replied hbuilt

end

theorem messageHeader_allBytes (request : ReceivedMachMessage) :
    messageHeader request.allBytes = .ok (storedHeader request.allBytes) := by
  apply messageHeader_of_le
  rw [ReceivedMachMessage.allBytes, request.buffer.length_bytes]
  decide

theorem failureReplyForMessage_allBytes (request : ReceivedMachMessage) :
    failureReplyForMessage request.allBytes =
      (buildExceptionReply (storedHeader request.allBytes)).toOption := by
  rw [failureReplyForMessage, messageHeader_allBytes]

section

variable (h : Accounted describe buffer request) (send : SendReply)
include h

theorem Accounted.rejectMalformedMessageWith :
    Accounted describe buffer (request.rejectMalformedMessageWith send).2 := by
  unfold ReceivedMachMessage.rejectMalformedMessageWith
  rw [failureReplyForMessage_allBytes]
  generalize hresult : buildExceptionReply (storedHeader request.allBytes) = result
  cases result with
  | error e => exact h
  | ok reply => exact h.sendOwnedReplyWith hresult send

theorem Accounted.sendDeferredReply :
    Accounted describe buffer (request.sendDeferredReply send).2 := by
  unfold ReceivedMachMessage.sendDeferredReply
  rw [messageHeader_allBytes]
  dsimp only
  cases hbuilt : buildExceptionReply (storedHeader request.allBytes) with
  | error e => exact h
  | ok reply => exact h.sendOwnedReplyWith hbuilt send

/-- Dropping the owner settles the accounts. -/
theorem Accounted.destroyOnce :
    Settled describe buffer request.destroyOnce.calls := by
  have hcalls : request.destroyOnce.calls = request.calls ++ [.destroy request.allBytes] := by
    simp [ReceivedMachMessage.destroyOnce, h.armed, ReceivedMachMessage.called]
  have hvoucher : request.calls.flatMap releasedVoucher = [] :=
    flatMap_of_undestroyed (fun _ _ => rfl) h.undestroyed
  have hbody : request.calls.flatMap (releasedBody describe) = [] :=
    flatMap_of_undestroyed (fun _ _ => rfl) h.undestroyed
  exact {
    reply := by
      rw [hcalls, ← h.reply]
      simp [disposedReply]
    voucher := by
      rw [hcalls, ← h.voucher]
      simp [hvoucher, releasedVoucher]
    body := by
      rw [hcalls, ← h.body]
      simp [hbody, releasedBody]
    destroyed := ⟨request.allBytes, by
      rw [hcalls]
      simp [h.undestroyed, destroyed]⟩
    replies := by
      rw [hcalls, List.flatMap_append]
      rcases h.replies with hnone | ⟨reply, hone, _⟩
      · simp [hnone, sentReply]
      · simp [hone, sentReply] }

end

end Steps

end CrashMonitor.Exceptions
