import CrashMonitor.Lib.Expand
import CrashMonitor.Lib.Lines
import CrashMonitor.Lib.Utf8
import CrashMonitor.Store.SessionRecorder

/-!
# The files of a session

`session.lock` names the running session in its first line and the start in
its second. `SessionEnricher` (`preprocessors/session.rs`) reads it from the
data directory when a crash is collected; `SessionRecorder`
(`postprocessors/session_recorder.rs`) adds a line to `sessions.jsonl` and
removes the lock when the report is committed.

The recorder is the one of the store, whose calls `appendSession` and
`removeSessionLock` stand here for the programs they are: two writes, and a
check of the owner before the removal. The remaining calls are passed on.
-/

namespace CrashMonitor.Session

open Interleave Lib.Lines Store

def maxSessionLockBytes : Nat := 4 * 1024
def maxSessionLockLineBytes : Nat := 1024
def sessionReadChunkBytes : Nat := 512

/-! ## Calls -/

/-- What `metadata()` of an opened lock tells, with whether it is still the
entry that was inspected before. -/
structure LockMetadata where
  isFile : Bool
  size : Nat
  sameEntry : Bool

inductive FileOp where
  /-- A call of the recorder that is no program here. -/
  | store (o : storeSig.Op)
  | currentTime
  /-- `symlink_metadata`: whether there is an entry. -/
  | findLock (dir : Path)
  | openLock (dir : Path)
  | lockMetadata (dir : Path)
  /-- `read`, repeated when interrupted. -/
  | readLock (dir : Path) (limit : Nat)
  | removeLock (dir : Path)
  | syncParent (dir : Path)
  /-- `write` to the log opened for appending, repeated when interrupted. -/
  | writeLog (dir : Path) (bytes : Bytes)

def FileOp.Res : FileOp → Type
  | .store o => storeSig.Res o
  | .currentTime => Int
  | .findLock _ => Except String Bool
  | .openLock _ => Except String Unit
  | .lockMetadata _ => Except String LockMetadata
  | .readLock .. => Except String Bytes
  | .removeLock _ => Except String Unit
  | .syncParent _ => Except String Unit
  | .writeLog .. => Except String Nat

def fileSig : Sig := ⟨FileOp, FileOp.Res⟩

abbrev FileCall := Attempt fileSig

def performFile (o : FileOp) : Prog fileSig o.Res := @Prog.op fileSig o

def checkpointFile (caller : Caller) : FileCall Unit :=
  ExceptT.mk (performFile (.store (caller, .checkpoint)))

def probeFile (caller : Caller) (what : String) : FileCall Unit :=
  ExceptT.mk (performFile (.store (caller, .probe what)))

variable (dir : Path)

def findLock : FileCall Bool := ExceptT.mk (performFile (.findLock dir))

def openLock : FileCall Unit := ExceptT.mk (performFile (.openLock dir))

def lockMetadata : FileCall LockMetadata := ExceptT.mk (performFile (.lockMetadata dir))

def readLock (limit : Nat) : FileCall Bytes := ExceptT.mk (performFile (.readLock dir limit))

def removeLock : FileCall Unit := ExceptT.mk (performFile (.removeLock dir))

def syncParent : FileCall Unit := ExceptT.mk (performFile (.syncParent dir))

def writeLog (bytes : Bytes) : FileCall Nat := ExceptT.mk (performFile (.writeLog dir bytes))

/-! ## Reading the lock -/

/-- `return None`; no text is kept. -/
def giveUp {α : Type} : FileCall α := throw ""

/-- The read loop of `read_session_lock_from`. A round adds at least a byte or
ends the loop, so the rounds do not run out. -/
def readChunks (caller : Caller) (dir : Path) : Nat → Bytes → FileCall Bytes
  | 0, _ => giveUp
  | rounds + 1, bytes => do
    checkpointFile caller
    let remaining := maxSessionLockBytes + 1 - bytes.length
    if remaining = 0 then giveUp
    else
      let chunk ← readLock dir (min remaining sessionReadChunkBytes)
      if chunk = [] then pure bytes
      else if (bytes ++ chunk).length > maxSessionLockBytes then giveUp
      else readChunks caller dir rounds (bytes ++ chunk)

/-- `bytes.split(|byte| *byte == b'\n').any(|line| line.len() > ..)`, where
`read` bytes of the first line were read already. -/
def hasLongLine (read : Nat) : Bytes → Bool
  | [] => read > maxSessionLockLineBytes
  | b :: rest =>
    if b = newline then read > maxSessionLockLineBytes || hasLongLine 0 rest
    else hasLongLine (read + 1) rest

def carriageReturn : UInt8 := 13

/-- A line without the carriage return in front of its newline. -/
def stripReturn (line : List Char) : List Char :=
  if line.getLast? = some '\r' then line.dropLast else line

/-- `lines().next()` and the text behind it. -/
def nextLine (text : List Char) : Option (List Char × List Char) :=
  match text, text.dropWhile (· ≠ '\n') with
  | [], _ => none
  | line, [] => some (line, [])
  | _, _ :: rest => some (stripReturn (text.takeWhile (· ≠ '\n')), rest)

/-- The two lines of a lock that is accepted. -/
def acceptLock (bytes : Bytes) : Option (String × String) := do
  if hasLongLine 0 bytes then none
  else
    let text ← Utf8.decode bytes
    let (id, rest) ← nextLine text
    let (start, _) ← nextLine rest
    some (String.ofList id, String.ofList start)

/-- The seconds since the start; a start in the future or none counts as zero. -/
def durationSince (start now : Int) : Nat := if start > 0 then (now - start).toNat else 0

section

variable (startTimestamp : String → Int)

/-- `read_session_lock_from`; `startTimestamp` is the RFC 3339 or decimal
reading of the second line, zero when it is neither. -/
def readSessionLockFrom (caller : Caller) (dir : Path) : FileCall SessionReport := do
  probeFile caller "open the data directory"
  openLock dir
  let metadata ← lockMetadata dir
  if !metadata.isFile || metadata.size > maxSessionLockBytes then giveUp
  else
    let bytes ← readChunks caller dir (maxSessionLockBytes + 2) []
    match acceptLock bytes with
    | none => giveUp
    | some (id, start) =>
      let now ← Attempt.always (performFile .currentTime)
      pure ⟨id, start, durationSince (startTimestamp start) now⟩

/-- `read_session_lock`, with the data directory it resolves. -/
def readSessionLock (caller : Caller) (dataDir : Except String Path) : FileCall SessionReport := do
  let dir ← Attempt.done dataDir
  probeFile caller "ensure the data directory is private"
  readSessionLockFrom startTimestamp caller dir

end

/-! ## Removing the lock -/

/-- `take(..).read_to_end`: what is left of the file, up to a limit. -/
def readToEnd (dir : Path) (limit : Nat) : Nat → Bytes → FileCall Bytes
  | 0, bytes => pure bytes
  | rounds + 1, bytes => do
    if limit ≤ bytes.length then pure bytes
    else
      let chunk ← readLock dir (limit - bytes.length)
      if chunk = [] then pure bytes
      else readToEnd dir limit rounds (bytes ++ chunk)

/-- The bytes of a text. -/
def textBytes (text : String) : Bytes := Utf8.encode text.toList

/-- `bytes.split(|byte| *byte == b'\n').next()`. -/
def ownerOf (bytes : Bytes) : Bytes := bytes.takeWhile (· ≠ newline)

/-- `remove_owned_session_lock` from the opened file on. -/
def removeOpenedLock (path : String) (expectedOwner : String) : FileCall Unit := do
  let bytes ← (readToEnd dir (maxSessionLockBytes + 1) (maxSessionLockBytes + 1)
    []).mapError fun e => s!"cannot read committed session lock: {e}"
  if bytes.length > maxSessionLockBytes then
    throw s!"committed session lock grew beyond {maxSessionLockBytes} bytes"
  else if ownerOf bytes ≠ textBytes expectedOwner then pure ()
  else
    (removeLock dir).mapError fun e => s!"cannot remove committed session lock '{path}': {e}"
    syncParent dir

/-- `remove_owned_session_lock` of the lock in a directory. -/
def removeOwnedSessionLock (expectedOwner : String) : FileCall Unit := do
  let path := (dir ++ ["session.lock"]).display
  if !(← (findLock dir).mapError fun e =>
      s!"cannot inspect committed session lock '{path}': {e}") then pure ()
  else
    (openLock dir).mapError fun e => s!"cannot validate session lock '{path}': {e}"
    let metadata ← (lockMetadata dir).mapError fun e => s!"cannot inspect opened session lock: {e}"
    if !metadata.sameEntry then
      throw s!"committed session lock changed before removal: '{path}'"
    else if metadata.size > maxSessionLockBytes then
      throw s!"committed session lock exceeds {maxSessionLockBytes} bytes: '{path}'"
    else removeOpenedLock dir path expectedOwner

/-! ## Writing the log -/

/-- `write_all`: written in as many pieces as the system takes. -/
def writeAll (dir : Path) : Nat → Bytes → FileCall Unit
  | 0, _ => pure ()
  | rounds + 1, bytes => do
    if bytes = [] then pure ()
    else
      let written ← writeLog dir bytes
      if written = 0 then throw "failed to write whole buffer"
      else writeAll dir rounds (bytes.drop written)

/-- The record, then its newline. -/
def writeRecord (line : String) : FileCall Unit := do
  writeAll dir (textBytes line).length (textBytes line)
  writeAll dir 1 [newline]

/-! ## The recorder over these calls -/

/-- The calls of the recorder that are programs of this module. -/
def sessionCalls : (o : storeSig.Op) → Prog fileSig (storeSig.Res o)
  | (_, .appendSession root line) => (writeRecord root line).run
  | (_, .removeSessionLock root owner) => (removeOwnedSessionLock root owner).run
  | o => performFile (.store o)

/-! ## The files -/

/-- The two files of each directory; a log that was not created yet is empty.
`position` is where the opened lock is read next. -/
structure Disk where
  lock : Path → Option Bytes
  log : Path → Bytes
  position : Nat

/-- A success, as `ok` has it; a failure changes nothing. -/
def Replies {α : Type} (s s' : Disk) (ok : α → Prop) : Except String α → Prop
  | .ok a => ok a
  | .error _ => s' = s

/-- What the calls do. Nobody else touches the files meanwhile. -/
def diskStep : Steps fileSig Disk
  | .store _, s, _, s' => s' = s
  | .currentTime, s, _, s' => s' = s
  | .findLock dir, s, r, s' => Replies s s' (fun found => found = (s.lock dir).isSome ∧ s' = s) r
  | .openLock dir, s, r, s' => Replies s s' (fun _ =>
    (s.lock dir).isSome ∧ s' = { s with position := 0 }) r
  | .lockMetadata dir, s, r, s' => Replies s s' (fun metadata =>
    (∃ content, s.lock dir = some content ∧ metadata = ⟨true, content.length, true⟩) ∧ s' = s) r
  | .readLock dir limit, s, r, s' => Replies s s' (fun chunk =>
    (∃ content, s.lock dir = some content ∧
      chunk <+: (content.drop s.position).take limit ∧
      (chunk = [] → (content.drop s.position).take limit = [])) ∧
      s' = { s with position := s.position + chunk.length }) r
  | .removeLock dir, s, r, s' => Replies s s' (fun _ =>
    (s.lock dir).isSome ∧ s' = { s with lock := Function.update s.lock dir none }) r
  | .syncParent _, s, r, s' => Replies s s' (fun _ => s' = s) r
  | .writeLog dir bytes, s, r, s' => Replies s s' (fun written =>
    written ≤ bytes.length ∧
      s' = { s with log := Function.update s.log dir (s.log dir ++ bytes.take written) }) r

/-- What the store and the clock tell the recorder. -/
structure StoreAnswers where
  committed : CommittedReport
  finish : String

section

variable (answers : StoreAnswers)

/-- The answer of a call of the store that did not fail. -/
def storeSucceeds : (o : StoreOp) → o.Res → Prop
  | .checkpoint, r => r = .ok ()
  | .probe _, r => r = .ok ()
  | .committedReport _, r => r = some answers.committed
  | .timestamp, r => r = answers.finish
  | _, _ => True

/-- A call fails only where there is no file. -/
def succeeds (s : Disk) : (o : FileOp) → o.Res → Prop
  | .store o, r => storeSucceeds answers o.2 r
  | .currentTime, _ => True
  | .findLock _, r => r.isOk
  | .openLock dir, r => (s.lock dir).isSome → r.isOk
  | .lockMetadata dir, r => (s.lock dir).isSome → r.isOk
  | .readLock dir _, r => (s.lock dir).isSome → r.isOk
  | .removeLock dir, r => (s.lock dir).isSome → r.isOk
  | .syncParent _, r => r.isOk
  | .writeLog _ bytes, r => ∃ written, r = .ok written ∧ (bytes ≠ [] → 0 < written)

/-- The steps of runs in which no call fails for another reason, and the store
gives these answers. -/
def workingStep : Steps fileSig Disk := fun o s r s' =>
  diskStep o s r s' ∧ succeeds answers s o r

end

end CrashMonitor.Session
