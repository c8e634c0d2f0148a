import CrashMonitor.Exceptions.Message
import CrashMonitor.Lib.Fallible

/-!
# The encoding of exception requests

What `mach_exception_raise_state_identity` requests look like, field after
field, and that `parse_exception_message` accepts just these.
-/

namespace CrashMonitor.Exceptions

open Bytes MachineInt List

/-! ## Requests -/

/-- The descriptor of a port with a send right. -/
structure SendRight where
  bytes : List UInt8
  length : bytes.length = portDescriptorSize
  disposition : bytes[10]?.getD 0 = receivedSendRight
  descriptorType : bytes[11]?.getD 0 = machMsgPortDescriptor

def SendRight.name (right : SendRight) : MachPort := u32FromNeBytes (right.bytes.take 4)

/-- The fields of a request; of the thread state only the number of words
counts. -/
structure ExceptionRequest where
  header : MachMsgHeader
  thread : SendRight
  task : SendRight
  ndr : List UInt8
  exceptionType : UInt32
  codes : List UInt64
  flavor : UInt32
  stateCount : UInt32
  state : List UInt8
  record : ndr.length = 8
  native : ndr[4]?.getD 0 = nativeNdrIntRep
  words : state.length = stateCount.toNat * 4
  size : header.msghSize.toNat = state.length + codes.length * 8 + 76
  id : header.msghId = machExceptionRaiseStateIdentityId
  complex : header.msghBits &&& machMsghBitsComplex ≠ 0
  safe : hasSafeReplyIdentity header = true
  fewCodes : codes.length ≤ maxCodeCount.toNat
  fewWords : stateCount ≤ maxThreadStateCount

/-- A word on the wire. -/
def u32ToNeBytes (word : UInt32) : List UInt8 := toLE 4 word.toNat

namespace ExceptionRequest

variable (request : ExceptionRequest)

/-- The packed fields in front of the thread state. -/
def fields : List (List UInt8) :=
  [u32ToNeBytes request.header.msghBits, u32ToNeBytes request.header.msghSize,
    u32ToNeBytes request.header.msghRemotePort, u32ToNeBytes request.header.msghLocalPort,
    u32ToNeBytes request.header.msghVoucherPort,
    u32ToNeBytes (.ofBitVec (.ofInt 32 request.header.msghId)), u32ToNeBytes 2,
    request.thread.bytes, request.task.bytes, request.ndr, u32ToNeBytes request.exceptionType,
    u32ToNeBytes (.ofNat request.codes.length)] ++ request.codes.map (toLE 8 ·.toNat) ++
    [u32ToNeBytes request.flavor, u32ToNeBytes request.stateCount]

def encode : List UInt8 := request.fields.flatten ++ request.state

def parsed : ParsedExceptionMessage :=
  ⟨request.header, request.thread.name, request.task.name, request.exceptionType, request.codes⟩

end ExceptionRequest

/-! ## Cutting a buffer into fields -/

/-- Pieces of the given widths, and the rest. -/
def cut : List Nat → List UInt8 → List (List UInt8)
  | [], buf => [buf]
  | width :: widths, buf => buf.take width :: cut widths (buf.drop width)

theorem flatten_cut (widths : List Nat) (buf : List UInt8) : (cut widths buf).flatten = buf := by
  induction widths generalizing buf with
  | nil => simp [cut]
  | cons width widths ih => simp [cut, ih]

theorem cut_flatten (pieces : List (List UInt8)) (rest : List UInt8) :
    cut (pieces.map length) (pieces.flatten ++ rest) = pieces ++ [rest] := by
  induction pieces with
  | nil => rfl
  | cons piece pieces ih => simp [cut, ih]

theorem cut_replicate (count width : Nat) (widths : List Nat) (buf : List UInt8) :
    cut (replicate count width ++ widths) buf =
      (range count).map (fun i => take width (drop (i * width) buf)) ++
        cut widths (drop (count * width) buf) := by
  induction count generalizing buf with
  | zero => simp
  | succ count ih =>
    simp [replicate_succ, cut, ih, range_succ_eq_map, Function.comp_def, Nat.succ_mul, Nat.add_comm]

def widths (codeCount : Nat) : List Nat :=
  [4, 4, 4, 4, 4, 4, 4, 12, 12, 8, 4, 4] ++ replicate codeCount 8 ++ [4, 4]

variable {buf : List UInt8} {parsed : ParsedExceptionMessage}

open ExceptionRequest

/-- A buffer is the encoding of a request if its pieces are the fields. -/
theorem eq_encode_iff {request : ExceptionRequest} : buf = request.encode ↔
    cut (widths request.codes.length) buf = request.fields ++ [request.state] := by
  constructor
  · rintro rfl
    have hwidths : request.fields.map length = widths request.codes.length := by
      simp [fields, u32ToNeBytes, widths, request.thread.length,
        request.task.length, request.record, portDescriptorSize, Function.comp_def]
    rw [← hwidths]
    exact cut_flatten ..
  · intro h
    rw [← flatten_cut (widths request.codes.length) buf, h, encode, flatten_append]
    simp

/-! ## Reading fields -/

@[simp] theorem u32FromNeBytes_u32ToNeBytes (word : UInt32) :
    u32FromNeBytes (u32ToNeBytes word) = word := u32FromNeBytes_toLE word

theorem u32ToNeBytes_u32FromNeBytes {bytes} (h : bytes.length = 4) :
    u32ToNeBytes (u32FromNeBytes bytes) = bytes := by
  have hlt : ofLE bytes < 256 ^ 4 := h ▸ ofLE_lt bytes
  rw [u32FromNeBytes, u32ToNeBytes, UInt32.toNat_ofNat', Nat.mod_eq_of_lt (by omega), ← h,
    toLE_ofLE]

@[simp] theorem u64FromNeBytes_toLE (word : UInt64) :
    u64FromNeBytes (toLE 8 word.toNat) = word := by
  rw [u64FromNeBytes, ofLE_toLE_of_lt word.toNat_lt]
  exact UInt64.ofNat_toNat

theorem toLE_u64FromNeBytes {bytes} (h : bytes.length = 8) :
    toLE 8 (u64FromNeBytes bytes).toNat = bytes := by
  have hlt : ofLE bytes < 256 ^ 8 := h ▸ ofLE_lt bytes
  rw [u64FromNeBytes, UInt64.toNat_ofNat', Nat.mod_eq_of_lt (by omega), ← h, toLE_ofLE]

theorem bind_eq_ok {ε α β : Type} {x} {f : α → Except ε β} {b} :
    x >>= f = .ok b ↔ ∃ a, x = .ok a ∧ f a = .ok b := by
  cases x <;> simp [bind, Except.bind]

theorem pure_eq_ok {ε α : Type} {a b} : (pure a : Except ε α) = .ok b ↔ a = b := by
  simp [pure, Except.pure]

theorem require_eq_ok {condition} [Decidable condition] {error u} :
    require condition error = .ok u ↔ condition := by
  unfold require
  split <;> simp [*]

theorem bytesAt_eq_ok {offset n field bytes} :
    bytesAt buf offset n field = .ok bytes ↔
      offset + n ≤ u64Max ∧ offset + n ≤ buf.length ∧ (buf.drop offset).take n = bytes := by
  by_cases hmax : offset + n ≤ u64Max
  · by_cases hle : offset + n ≤ buf.length
    · simp [bytesAt_of_le hle hmax, hmax, hle]
    · simp [bytesAt, Slice.get, hle]
      split <;> simp
  · simp [bytesAt, hmax, Nat.lt_of_not_le hmax]

theorem messageHeader_eq_ok {header} : messageHeader buf = .ok header ↔
    machHeaderSize ≤ buf.length ∧ storedHeader buf = header := by
  constructor
  · intro h
    have hlong : machHeaderSize ≤ buf.length := by
      simp only [messageHeader, u32At, i32At, bind_eq_ok, pure_eq_ok, bytesAt_eq_ok] at h
      simp [machHeaderSize]
      grind
    rw [messageHeader_of_le hlong] at h
    exact ⟨hlong, Except.ok.inj h⟩
  · rintro ⟨hlong, rfl⟩
    exact messageHeader_of_le hlong

theorem mapM_u64At {count} (h : 68 + count * 8 ≤ buf.length) (hmax : buf.length ≤ u64Max) :
    (range count).mapM (fun index => u64At buf (68 + index * 8) "code") =
      .ok ((range count).map fun index => u64FromNeBytes (take 8 (drop (68 + index * 8) buf))) := by
  rw [Fallible.mapM_congr .., mapM_pure]
  · rfl
  intro index hindex
  have := mem_range.mp hindex
  rw [u64At, bytesAt_of_le (by omega) (by omega)]
  rfl

theorem ExceptionRequest.length_encode (request : ExceptionRequest) :
    request.encode.length = request.state.length + request.codes.length * 8 + 76 := by
  simp [encode, fields, u32ToNeBytes, request.thread.length, request.task.length,
      request.record, portDescriptorSize, Function.comp_def]
  omega

theorem parseExceptionMessage_eq_ok_iff : parseExceptionMessage buf = .ok parsed ↔
    ∃ request : ExceptionRequest, buf = request.encode ∧ parsed = request.parsed := by
  -- the parser as a list of conditions, and then with its offsets
  simp only [parseExceptionMessage, parsePortDescriptor, u32At, i32At, bind_eq_ok,
    messageHeader_eq_ok, pure_eq_ok, require_eq_ok, bytesAt_eq_ok, exists_and_left, existsAndEq,
    exists_const, and_assoc, true_and]
  simp only [codeOffset, codeCountOffset, exceptionOffset, ndrOffset, taskDescriptorOffset,
    threadDescriptorOffset, portDescriptorSize, bodyOffset, machHeaderSize, Nat.reduceAdd]
  constructor
  · rintro ⟨-, hsize, hid, hcomplex, hsafe, -, -, htwo, -, -, -, -, htype, hsend, -, -, -, -,
      htype', hsend', -, -, hndr, -, -, -, -, hcodes, codes, hread, -, -, -, -, hwords, hlength,
      rfl⟩
    have hcount : u32ToNeBytes (u32FromNeBytes (take 4 (drop 64 buf))) = take 4 (drop 64 buf) :=
      u32ToNeBytes_u32FromNeBytes (by simp; omega)
    have hofNat := UInt32.ofNat_toNat (x := u32FromNeBytes (take 4 (drop 64 buf)))
    have hmax : buf.length ≤ u64Max := by
      rw [← hsize]
      exact Nat.le_trans (Nat.le_of_lt (UInt32.toNat_lt _)) (by decide)
    rw [mapM_u64At (by omega) hmax] at hread
    have hcodes' : (u32FromNeBytes (take 4 (drop 64 buf))).toNat ≤ maxCodeCount.toNat := hcodes
    generalize (u32FromNeBytes (take 4 (drop 64 buf))).toNat = count at *
    cases hread
    let request : ExceptionRequest := {
      header := storedHeader buf
      thread := ⟨take 12 (drop 28 buf), by simp [portDescriptorSize]; omega, by simpa using hsend,
        by simpa using htype⟩
      task := ⟨take 12 (drop 40 buf), by simp [portDescriptorSize]; omega, by simpa using hsend',
        by simpa using htype'⟩
      ndr := take 8 (drop 52 buf)
      exceptionType := u32FromNeBytes (take 4 (drop 60 buf))
      codes := (range count).map fun index => u64FromNeBytes (take 8 (drop (68 + index * 8) buf))
      flavor := u32FromNeBytes (take 4 (drop (68 + count * 8) buf))
      stateCount := u32FromNeBytes (take 4 (drop (68 + count * 8 + 4) buf))
      state := drop (68 + count * 8 + 4 + 4) buf
      record := by simp; omega
      native := by simpa using hndr
      words := by simp; omega
      size := by simp [hsize]; omega
      id := hid
      complex := hcomplex
      safe := hsafe
      fewCodes := by simpa using hcodes'
      fewWords := hwords }
    refine ⟨request, eq_encode_iff.mpr ?_, ?_⟩
    · have hword : ∀ o, o + 4 ≤ buf.length →
          u32ToNeBytes (u32FromNeBytes (take 4 (drop o buf))) = take 4 (drop o buf) := by
        intro o ho
        exact u32ToNeBytes_u32FromNeBytes (by simp; omega)
      have hraw : (range count).map (fun i => take 8 (drop (68 + i * 8) buf)) = (range count).map
          fun i => toLE 8 (u64FromNeBytes (take 8 (drop (68 + i * 8) buf))).toNat := by
        refine map_congr_left fun i hi => ?_
        have := mem_range.mp hi
        exact (toLE_u64FromNeBytes (by simp; omega)).symm
      simp (disch := omega) [request, widths, cut, cut_replicate, fields, storedHeader,
        i32FromNeBytes, hofNat, ← htwo, hword, hraw, Function.comp_def]
      exact (hword 0 (by omega)).symm
    · simp [request, parsed, SendRight.name, take_take]
  · rintro ⟨request, hencode, rfl⟩
    have hcut := eq_encode_iff.mp hencode
    have hlength : buf.length = _ := hencode ▸ request.length_encode
    have hmax : buf.length ≤ u64Max := by
      rw [hlength, ← request.size]
      exact Nat.le_trans (Nat.le_of_lt request.header.msghSize.toNat_lt) (by decide)
    have hid : i32FromNeBytes (u32ToNeBytes (.ofBitVec (.ofInt 32 request.header.msghId))) =
        request.header.msghId := by
      rw [request.id]
      decide
    have hname : ∀ o, take 4 (drop o buf) = take 4 (take 12 (drop o buf)) := by
      intro o
      rw [take_take]
      rfl
    simp [fields, widths, cut, cut_replicate] at hcut
    obtain ⟨h0, h4, h8, h12, h16, h20, h24, h28, h40, h52, h60, h64, htail⟩ := hcut
    obtain ⟨hcodes, htail⟩ := append_inj htail (by simp)
    simp only [cons.injEq] at htail
    have hheader : storedHeader buf = request.header := by
      simp [storedHeader, h0, h4, h8, h12, h16, h20, hid]
    have hcount : (u32FromNeBytes (take 4 (drop 64 buf))).toNat = request.codes.length := by
      rw [h64]
      have : request.codes.length ≤ 2 := request.fewCodes
      simp
      omega
    have hraw : (range request.codes.length).map
        (fun index => u64FromNeBytes (take 8 (drop (68 + index * 8) buf))) = request.codes := by
      simpa [Function.comp_def] using congrArg (map u64FromNeBytes) hcodes
    have hfew : u32FromNeBytes (take 4 (drop 64 buf)) ≤ maxCodeCount := by
      rw [UInt32.le_iff_toNat_le, hcount]
      exact request.fewCodes
    rw [hcount, mapM_u64At (by omega) hmax, hraw]
    simp [hheader, hname 28, hname 40, h24, h28, h40, h52, h60, hfew, htail, hlength, parsed,
      SendRight.name, request.complex, request.safe, request.id, request.size, request.words,
      request.fewWords, request.native, request.thread.disposition, request.thread.descriptorType,
      request.task.disposition, request.task.descriptorType]
    have := request.words
    omega

/-- **Exception messages.** The parser accepts exactly the encodings of
requests, and returns what they encode. Whenever the header is there and names a
safe reply right, a failure reply to that right can be built. -/
theorem exception_message_exact (buf : List UInt8) :
    (∀ parsed, parseExceptionMessage buf = .ok parsed ↔
      ∃ request : ExceptionRequest, buf = request.encode ∧ parsed = request.parsed) ∧
    (machHeaderSize ≤ buf.length → hasSafeReplyIdentity (storedHeader buf) = true →
      ∃ reply, failureReplyForMessage buf = some reply ∧ reply.retCode = kernFailure ∧
        reply.header.msghRemotePort = (storedHeader buf).msghRemotePort ∧
        reply.header.msghBits = (storedHeader buf).msghBits &&& machMsghBitsRemoteMask) := by
  refine ⟨fun parsed => parseExceptionMessage_eq_ok_iff, fun hlong hsafe => ?_⟩
  have hreply : ∃ reply, buildExceptionReply (storedHeader buf) = .ok reply := by
    have hid := hsafe
    simp only [hasSafeReplyIdentity, Bool.and_eq_true] at hid
    obtain ⟨id, hid⟩ := Option.isSome_iff_exists.mp hid.2
    simp [buildExceptionReply, hid, hsafe]
  obtain ⟨reply, hreply⟩ := hreply
  obtain ⟨-, hport, hbits, hcode⟩ := buildExceptionReply_eq_ok hreply
  refine ⟨reply, ?_, hcode, hport, hbits⟩
  rw [failureReplyForMessage, messageHeader_of_le hlong]
  simp [hreply, Except.toOption]

end CrashMonitor.Exceptions
