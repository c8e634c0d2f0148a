import CrashMonitor.Lib.Bytes
import CrashMonitor.Lib.MachineInt
import CrashMonitor.Lib.Slice
import Mathlib.Algebra.Group.Int.Defs

/-!
# Mach exception requests on the wire

The byte-oriented parser of `mach_exception_raise_state_identity` requests
and the `KERN_FAILURE` reply built from a request's header
(`platform/macos/exceptions.rs`). Words are in native byte order, which is
little-endian on both supported targets.
-/

namespace CrashMonitor.Exceptions

open Bytes MachineInt

/-! ## Constants of the Mach interface -/

/-- `mach_port_t`. -/
abbrev MachPort := UInt32

def machPortNull : MachPort := 0
def machPortDead : MachPort := 0xffffffff

def machMsghBitsRemoteMask : UInt32 := 0x1f
def machMsghBitsComplex : UInt32 := 0x80000000
def machMsgTypeMoveSend : UInt32 := 17
def machMsgTypeMoveSendOnce : UInt32 := 18
def kernFailure : Int := 5

/-- `MACH_MSGH_BITS`. -/
def machMsghBits (remote : UInt32) (localBits : UInt32) : UInt32 := remote ||| (localBits <<< 8)

def machExceptionRaiseStateIdentityId : Int := 2407

def machHeaderSize : Nat := 24
def bodyOffset : Nat := machHeaderSize
def portDescriptorSize : Nat := 12
def threadDescriptorOffset : Nat := bodyOffset + 4
def taskDescriptorOffset : Nat := threadDescriptorOffset + portDescriptorSize
def ndrOffset : Nat := taskDescriptorOffset + portDescriptorSize
def exceptionOffset : Nat := ndrOffset + 8
def codeCountOffset : Nat := exceptionOffset + 4
def codeOffset : Nat := codeCountOffset + 4
def maxCodeCount : UInt32 := 2
def maxThreadStateCount : UInt32 := 1296
def machMsgPortDescriptor : UInt8 := 0
def receivedSendRight : UInt8 := 17
def nativeNdrIntRep : UInt8 := 1
def nativeNdrRecord : List UInt8 := [0, 0, 0, 0, nativeNdrIntRep, 0, 0, 0]

/-! ## Headers and errors -/

/-- `mach_msg_header_t`. -/
structure MachMsgHeader where
  msghBits : UInt32
  msghSize : UInt32
  msghRemotePort : MachPort
  msghLocalPort : MachPort
  msghVoucherPort : MachPort
  msghId : Int
deriving Repr, DecidableEq

inductive ExceptionMessageError where
  | truncated (field : String) (needed actual : Nat)
  | headerSizeMismatch (declared actual : Nat)
  | unexpectedMessageId (actual : Int)
  | missingComplexBit
  | unexpectedDescriptorCount (actual : UInt32)
  | invalidPortDescriptor (index : Nat) (descriptorType disposition : UInt8)
  | unsupportedNdrIntegerRepresentation (actual : UInt8)
  | invalidCodeCount (actual : UInt32)
  | invalidThreadStateCount (actual : UInt32)
  | invalidPackedSize (expected actual : Nat)
  | unsafeReplyIdentity
deriving Repr, DecidableEq

/-- The `Display` text of an error. -/
def ExceptionMessageError.text : ExceptionMessageError → String
  | .truncated field needed actual =>
    s!"Mach exception request is truncated at {field}: need {needed} bytes, got {actual}"
  | .headerSizeMismatch declared actual =>
    s!"Mach exception msgh_size mismatch: header says {declared}, received {actual}"
  | .unexpectedMessageId actual =>
    s!"unexpected Mach exception message ID {actual} " ++
      s!"(expected {machExceptionRaiseStateIdentityId})"
  | .missingComplexBit => "Mach exception request is missing MACH_MSGH_BITS_COMPLEX"
  | .unexpectedDescriptorCount actual =>
    s!"Mach exception request has {actual} descriptors (expected 2)"
  | .invalidPortDescriptor index descriptorType disposition =>
    s!"Mach exception descriptor {index} has type {descriptorType} and disposition " ++
      s!"{disposition} (expected port/send)"
  | .unsupportedNdrIntegerRepresentation actual =>
    s!"Mach exception request uses unsupported NDR integer representation {actual}"
  | .invalidCodeCount actual => s!"Mach exception request has invalid code count {actual}"
  | .invalidThreadStateCount actual =>
    s!"Mach exception request has invalid thread-state count {actual}"
  | .invalidPackedSize expected actual =>
    s!"Mach exception packed size mismatch: expected {expected}, got {actual}"
  | .unsafeReplyIdentity => "Mach request does not contain a safe reply identity"

/-- A check that fails with the given error. -/
def require (condition : Prop) [Decidable condition] (error : ExceptionMessageError) :
    Except ExceptionMessageError Unit :=
  if condition then .ok () else .error error

/-! ## Fixed-width fields -/

variable (buf : List UInt8)

section

variable (offset : Nat) (bytes : List UInt8) (field : String)

/-- `bytes::<N>`. -/
def bytesAt (n : Nat) (field : String) : Except ExceptionMessageError (List UInt8) :=
  if u64Max < offset + n then .error (.truncated field u64Max buf.length)
  else
    match Slice.get buf offset n with
    | none => .error (.truncated field (offset + n) buf.length)
    | some slice => .ok slice

/-- `u32::from_ne_bytes`. -/
def u32FromNeBytes : UInt32 := UInt32.ofNat (ofLE bytes)

/-- `u64::from_ne_bytes`. -/
def u64FromNeBytes : UInt64 := UInt64.ofNat (ofLE bytes)

/-- `i32::from_ne_bytes`: the two's complement value of the word. -/
def i32FromNeBytes : Int := (u32FromNeBytes bytes).toBitVec.toInt

@[simp] theorem u32FromNeBytes_toLE (word : UInt32) :
    u32FromNeBytes (toLE 4 word.toNat) = word := by
  rw [u32FromNeBytes, ofLE_toLE_of_lt word.toNat_lt]
  exact UInt32.ofNat_toNat

def u32At : Except ExceptionMessageError UInt32 := do
  return u32FromNeBytes (← bytesAt buf offset 4 field)

def i32At : Except ExceptionMessageError Int := do
  return i32FromNeBytes (← bytesAt buf offset 4 field)

def u64At : Except ExceptionMessageError UInt64 := do
  return u64FromNeBytes (← bytesAt buf offset 8 field)

/-! ## Requests -/

def messageHeader : Except ExceptionMessageError MachMsgHeader := do
  return {
    msghBits := ← u32At buf 0 "msgh_bits"
    msghSize := ← u32At buf 4 "msgh_size"
    msghRemotePort := ← u32At buf 8 "msgh_remote_port"
    msghLocalPort := ← u32At buf 12 "msgh_local_port"
    msghVoucherPort := ← u32At buf 16 "msgh_voucher_port"
    msghId := ← i32At buf 20 "msgh_id" }

def parsePortDescriptor (index : Nat) : Except ExceptionMessageError MachPort := do
  let name ← u32At buf offset "port descriptor name"
  let descriptor ← bytesAt buf offset 12 "port descriptor"
  let disposition := descriptor.getD 10 0
  let descriptorType := descriptor.getD 11 0
  require (descriptorType = machMsgPortDescriptor ∧ disposition = receivedSendRight)
    (.invalidPortDescriptor index descriptorType disposition)
  return name

/-- `i32::checked_add`. -/
def i32CheckedAdd (a b : Int) : Option Int :=
  if -(2 ^ 31) ≤ a + b ∧ a + b < 2 ^ 31 then some (a + b) else none

def hasSafeReplyIdentity (header : MachMsgHeader) : Bool :=
  let replyDisposition := header.msghBits &&& machMsghBitsRemoteMask
  let validDisposition := replyDisposition == machMsgTypeMoveSend ||
    replyDisposition == machMsgTypeMoveSendOnce
  let validPort := header.msghRemotePort != machPortNull && header.msghRemotePort != machPortDead
  validDisposition && validPort && (i32CheckedAdd header.msghId 100).isSome

end

/-- A validated request. -/
structure ParsedExceptionMessage where
  replyHeader : MachMsgHeader
  threadPort : MachPort
  taskPort : MachPort
  exceptionType : UInt32
  rawCodes : List UInt64
deriving Repr, DecidableEq

section

variable (parsed : ParsedExceptionMessage)

def ParsedExceptionMessage.code : UInt64 :=
  parsed.rawCodes.getD 0 0

def ParsedExceptionMessage.subcode : UInt64 :=
  parsed.rawCodes.getD 1 0

end

def parseExceptionMessage : Except ExceptionMessageError ParsedExceptionMessage := do
  let header ← messageHeader buf
  let declaredSize := header.msghSize.toNat
  require (declaredSize = buf.length) (.headerSizeMismatch declaredSize buf.length)
  require (header.msghId = machExceptionRaiseStateIdentityId) (.unexpectedMessageId header.msghId)
  require (header.msghBits &&& machMsghBitsComplex ≠ 0) .missingComplexBit
  require (hasSafeReplyIdentity header) .unsafeReplyIdentity
  let descriptorCount ← u32At buf bodyOffset "msgh_descriptor_count"
  require (descriptorCount = 2) (.unexpectedDescriptorCount descriptorCount)
  let threadPort ← parsePortDescriptor buf threadDescriptorOffset 0
  let taskPort ← parsePortDescriptor buf taskDescriptorOffset 1
  let ndr ← bytesAt buf ndrOffset 8 "NDR"
  let intRep := ndr.getD 4 0
  require (intRep = nativeNdrIntRep) (.unsupportedNdrIntegerRepresentation intRep)
  let exceptionType ← u32At buf exceptionOffset "exception"
  let codeCount ← u32At buf codeCountOffset "codeCnt"
  require (codeCount ≤ maxCodeCount) (.invalidCodeCount codeCount)
  let rawCodes ← (List.range codeCount.toNat).mapM fun index =>
    u64At buf (codeOffset + index * 8) "code"
  -- the fields after `code[]` follow the actual element count
  let flavorOffset := codeOffset + codeCount.toNat * 8
  let _flavor ← i32At buf flavorOffset "flavor"
  let stateCountOffset := flavorOffset + 4
  let stateCount ← u32At buf stateCountOffset "old_stateCnt"
  require (stateCount ≤ maxThreadStateCount) (.invalidThreadStateCount stateCount)
  -- the checked additions cannot overflow: the count was bounded just above
  let expectedSize := stateCountOffset + 4 + stateCount.toNat * 4
  require (expectedSize = buf.length) (.invalidPackedSize expectedSize buf.length)
  return { replyHeader := header, threadPort, taskPort, exceptionType, rawCodes }

/-! ## Replies -/

/-- The minimal MIG error reply. -/
structure ExceptionReply where
  header : MachMsgHeader
  ndr : List UInt8
  retCode : Int
deriving Repr, DecidableEq

/-- `size_of::<ExceptionReply>()`. -/
def exceptionReplySize : UInt32 := 36

def buildExceptionReply (requestHeader : MachMsgHeader) :
    Except ExceptionMessageError ExceptionReply :=
  match i32CheckedAdd requestHeader.msghId 100 with
  | none => .error .unsafeReplyIdentity
  | some replyId =>
    if hasSafeReplyIdentity requestHeader then
      .ok {
        header := {
          msghBits :=
            machMsghBits (requestHeader.msghBits &&& machMsghBitsRemoteMask) 0
          msghSize := exceptionReplySize
          msghRemotePort := requestHeader.msghRemotePort
          msghLocalPort := machPortNull
          msghVoucherPort := machPortNull
          msghId := replyId }
        ndr := nativeNdrRecord
        retCode := kernFailure }
    else .error .unsafeReplyIdentity

def failureReplyForMessage : Option ExceptionReply :=
  match messageHeader buf with
  | .error _ => none
  | .ok header => (buildExceptionReply header).toOption

/-! ## What the functions guarantee -/

/-- The header stored in the first bytes of a buffer that is long enough to
hold one. -/
def storedHeader : MachMsgHeader where
  msghBits := u32FromNeBytes ((buf.drop 0).take 4)
  msghSize := u32FromNeBytes ((buf.drop 4).take 4)
  msghRemotePort := u32FromNeBytes ((buf.drop 8).take 4)
  msghLocalPort := u32FromNeBytes ((buf.drop 12).take 4)
  msghVoucherPort := u32FromNeBytes ((buf.drop 16).take 4)
  msghId := i32FromNeBytes ((buf.drop 20).take 4)

section

variable {buf : List UInt8} {header : MachMsgHeader} {reply : ExceptionReply}

theorem bytesAt_of_le {offset n field} (h : offset + n ≤ buf.length)
    (hmax : offset + n ≤ u64Max) : bytesAt buf offset n field = .ok ((buf.drop offset).take n) := by
  rw [bytesAt, if_neg (by omega), Slice.get_of_le h]

/-- A whole physical header is always readable. -/
theorem messageHeader_of_le (h : machHeaderSize ≤ buf.length) :
    messageHeader buf = .ok (storedHeader buf) := by
  have hmax : machHeaderSize ≤ u64Max := by decide
  unfold machHeaderSize at h hmax
  simp only [messageHeader, u32At, i32At]
  simp (disch := omega) only [bytesAt_of_le]
  rfl

/-- A reply is built exactly for the safe identities, and it moves the very
right the request's header names. -/
theorem buildExceptionReply_eq_ok (h : buildExceptionReply header = .ok reply) :
    hasSafeReplyIdentity header = true ∧
    reply.header.msghRemotePort = header.msghRemotePort ∧
    reply.header.msghBits = header.msghBits &&& machMsghBitsRemoteMask ∧
    reply.retCode = kernFailure := by
  unfold buildExceptionReply at h
  split at h
  · cases h
  split at h
  · next hsafe =>
      cases h
      exact ⟨hsafe, rfl, by simp [machMsghBits], rfl⟩
  · cases h

end

end CrashMonitor.Exceptions
