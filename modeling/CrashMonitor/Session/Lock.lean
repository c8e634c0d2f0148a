import CrashMonitor.Session.Record

/-!
# When a recorded crash closes its session

The lock is read from the data directory and removed from the output root of
the report's transaction. The reader takes the first line without a carriage
return in front of its newline, the remover compares the bytes up to the
newline. So the lock that was read is gone after the record exactly if the two
directories are one, the first line does not end with a carriage return, and
the record is short enough to be written.
-/

namespace CrashMonitor.Session

open Interleave Lib.Lines Store Function List

variable {answers : StoreAnswers} {dir : Path} {content : Bytes} {s : Disk}

/-! ## Calls that work -/

theorem checkpoint_works {caller} :
    Achieves (workingStep answers) s (checkpointFile caller) fun _ s' => s' = s := by
  rintro r s' ⟨hstep, hok⟩
  exact ⟨(), hok, hstep⟩

theorem probe_works {caller what} :
    Achieves (workingStep answers) s (probeFile caller what) fun _ s' => s' = s := by
  rintro r s' ⟨hstep, hok⟩
  exact ⟨(), hok, hstep⟩

theorem currentTime_works :
    Achieves (workingStep answers) s (.always (performFile .currentTime)) fun _ s' => s' = s := by
  rintro r s' ⟨hstep, -⟩
  exact ⟨r, rfl, hstep⟩

theorem findLock_works : Achieves (workingStep answers) s (findLock dir) fun found s' =>
      found = (s.lock dir).isSome ∧ s' = s := by
  rintro (e | found) s' ⟨hstep, hok⟩
  · exact absurd hok Bool.false_ne_true
  · exact ⟨_, rfl, hstep⟩

theorem syncParent_works :
    Achieves (workingStep answers) s (syncParent dir) fun _ s' => s' = s := by
  rintro (e | _) s' ⟨hstep, hok⟩
  · exact absurd hok Bool.false_ne_true
  · exact ⟨_, rfl, hstep⟩

section

variable (h : s.lock dir = some content)
include h

theorem openLock_works :
    Achieves (workingStep answers) s (openLock dir) fun _ s' => s' = { s with position := 0 } := by
  rintro (e | _) s' ⟨hstep, hok⟩
  · exact absurd (hok (by rw [h]; rfl)) Bool.false_ne_true
  · exact ⟨_, rfl, hstep.2⟩

theorem lockMetadata_works : Achieves (workingStep answers) s (lockMetadata dir) fun metadata s' =>
      metadata = ⟨true, content.length, true⟩ ∧ s' = s := by
  rintro (e | metadata) s' ⟨hstep, hok⟩
  · exact absurd (hok (by rw [h]; rfl)) Bool.false_ne_true
  obtain ⟨⟨found, hfound, hmetadata⟩, hs⟩ := hstep
  cases h.symm.trans hfound
  exact ⟨_, rfl, hmetadata, hs⟩

/-- A read takes the next bytes, and none only at the end. -/
theorem readLock_works {limit} (hlimit : 0 < limit) :
    Achieves (workingStep answers) s (readLock dir limit) fun chunk s' =>
      chunk <+: content.drop s.position ∧
      (chunk = [] → content.length ≤ s.position) ∧
      s' = { s with position := s.position + chunk.length } := by
  rintro (e | chunk) s' ⟨hstep, hok⟩
  · exact absurd (hok (by rw [h]; rfl)) Bool.false_ne_true
  obtain ⟨⟨found, hfound, hchunk, hend⟩, hs⟩ := hstep
  cases h.symm.trans hfound
  refine ⟨_, rfl, hchunk.trans (List.take_prefix _ _), ?_, hs⟩
  intro hnil
  have htake := hend hnil
  rw [take_eq_nil_iff, drop_eq_nil_iff] at htake
  omega

theorem removeLock_works : Achieves (workingStep answers) s (removeLock dir) fun _ s' =>
      s' = { s with lock := update s.lock dir none } := by
  rintro (e | _) s' ⟨hstep, hok⟩
  · exact absurd (hok (by rw [h]; rfl)) Bool.false_ne_true
  · exact ⟨_, rfl, hstep.2⟩

end

/-! ## Reading to the end -/

/-- So much of the lock was read, and no lock changed. -/
structure ReadSoFar (locks : Path → Option Bytes) (dir : Path) (content : Bytes) (s : Disk)
    (bytes : Bytes) : Prop where
  sameLock : s.lock = locks
  present : locks dir = some content
  taken : bytes = content.take s.position
  inside : s.position ≤ content.length

section Loops

variable {locks : Path → Option Bytes} {bytes : Bytes}

theorem ReadSoFar.start (h : s.lock dir = some content) :
    ReadSoFar s.lock dir content { s with position := 0 } [] := ⟨rfl, h, rfl, Nat.zero_le _⟩

namespace ReadSoFar

variable (h : ReadSoFar locks dir content s bytes)
include h

theorem found : s.lock dir = some content := by
  rw [h.sameLock]
  exact h.present

theorem length_bytes : bytes.length = s.position := by
  rw [h.taken, length_take]
  exact Nat.min_eq_left h.inside

/-- One more read: it ends the file, or the loop goes on in it. -/
theorem read {limit} {rest : Bytes → FileCall Bytes} (hlimit : 0 < limit)
    (hrest : ∀ chunk s', ReadSoFar locks dir content s' (bytes ++ chunk) →
      s.position < s'.position → Achieves (workingStep answers) s' (rest chunk) fun all s' =>
        all = content ∧ ReadSoFar locks dir content s' content) :
    Achieves (workingStep answers) s
      (do let chunk ← readLock dir limit; if chunk = [] then pure bytes else rest chunk)
      fun all s' => all = content ∧ ReadSoFar locks dir content s' content := by
  apply (readLock_works h.found hlimit).bind
  rintro chunk _ ⟨hchunk, hend, rfl⟩
  have hfit : s.position + chunk.length ≤ content.length := by
    have hle := hchunk.length_le
    rw [length_drop] at hle
    have := h.inside
    omega
  have hread : ReadSoFar locks dir content { s with position := s.position + chunk.length }
      (bytes ++ chunk) := by
    refine ⟨h.sameLock, h.present, ?_, hfit⟩
    rw [h.taken, take_add]
    congr 1
    exact prefix_iff_eq_take.mp hchunk
  split
  · next hnil =>
    have hall : bytes = content := by
      rw [h.taken, take_of_length_le (hend hnil)]
    rw [hnil, append_nil, hall] at hread
    exact .pure ⟨hall, hnil ▸ hread⟩
  · next hne => exact hrest chunk _ hread (Nat.lt_add_of_pos_right (length_pos_iff.mpr hne))

theorem readChunks {caller rounds} (hsize : content.length ≤ maxSessionLockBytes)
    (hrounds : content.length - s.position < rounds) :
    Achieves (workingStep answers) s (readChunks caller dir rounds bytes) fun all s' =>
      all = content ∧ ReadSoFar locks dir content s' content := by
  induction rounds generalizing s bytes with
  | zero => omega
  | succ rounds ih =>
    have hlen := h.length_bytes
    have hpos := h.inside
    refine checkpoint_works.past fun _ => ?_
    rw [if_neg (by omega)]
    apply h.read (by unfold sessionReadChunkBytes; omega)
    intro chunk s' hread hgrows
    have hlen' := hread.length_bytes
    have hpos' := hread.inside
    rw [if_neg (by omega)]
    exact ih hread (by omega)

theorem readToEnd {limit rounds}
    (hlimit : content.length < limit) (hrounds : content.length - s.position < rounds) :
    Achieves (workingStep answers) s (readToEnd dir limit rounds bytes) fun all s' =>
      all = content ∧ ReadSoFar locks dir content s' content := by
  induction rounds generalizing s bytes with
  | zero => omega
  | succ rounds ih =>
    have hlen := h.length_bytes
    have hpos := h.inside
    unfold Session.readToEnd
    rw [if_neg (by omega)]
    apply h.read (by omega)
    intro chunk s' hread hgrows
    have hpos' := hread.inside
    exact ih hread (by omega)

end ReadSoFar

end Loops

/-! ## What the reader accepts -/

/-- The two lines of a lock file that is accepted. -/
def acceptFile (content : Bytes) : Option (String × String) :=
  if content.length > maxSessionLockBytes then none else acceptLock content

theorem readSessionLock_works {startTimestamp caller} (h : s.lock dir = some content) :
    Ensures (workingStep answers) s (readSessionLock startTimestamp caller (.ok dir)).run
      fun result s' => s'.lock = s.lock ∧
        match acceptFile content with
        | some (id, start) =>
          ∃ now, result = .ok ⟨id, start, durationSince (startTimestamp start) now⟩
        | none => ∃ e, result = .error e := by
  refine probe_works.past fun _ => probe_works.past fun _ => ?_
  apply (openLock_works h).seq
  rintro _ opened hopened
  have hstart := ReadSoFar.start h
  rw [← hopened] at hstart
  apply (lockMetadata_works hstart.found).seq
  rintro _ _ ⟨rfl, rfl⟩
  by_cases hsize : content.length > maxSessionLockBytes
  · rw [if_pos (by simp [hsize]), acceptFile, if_pos hsize]
    exact ⟨hstart.sameLock, "", rfl⟩
  rw [if_neg (by simp [hsize]), acceptFile, if_neg hsize]
  apply (hstart.readChunks (by omega) (by omega)).seq
  intro all s₁ hread
  rw [hread.1]
  cases acceptLock content with
  | none => exact ⟨hread.2.sameLock, "", rfl⟩
  | some lines => exact currentTime_works.past fun now => ⟨hread.2.sameLock, now, rfl⟩

/-! ## What the remover does -/

/-- The locks after `remove_owned_session_lock`: a lock of proper size is gone
if its first line is the owner. -/
def withoutLockOf (dir : Path) (owner : String) (locks : Path → Option Bytes) :
    Path → Option Bytes :=
  match locks dir with
  | none => locks
  | some content =>
    if content.length ≤ maxSessionLockBytes ∧ ownerOf content = textBytes owner then
      update locks dir none
    else locks

theorem withoutLockOf_apply {locks} {root owner} (h : locks dir = some content)
    (hsize : content.length ≤ maxSessionLockBytes) : withoutLockOf root owner locks dir =
      if root = dir ∧ ownerOf content = textBytes owner then none else some content := by
  unfold withoutLockOf
  by_cases hroot : root = dir
  · subst hroot
    by_cases howner : ownerOf content = textBytes owner <;> simp [h, hsize, howner]
  · rw [if_neg fun hboth => hroot hboth.1]
    cases locks root with
    | none => exact h
    | some other =>
      dsimp only
      split
      · rw [update_of_ne (Ne.symm hroot), h]
      · exact h

theorem removeOwnedSessionLock_works {owner} :
    Ensures (workingStep answers) s (removeOwnedSessionLock dir owner).run fun _ s' =>
      s'.lock = withoutLockOf dir owner s.lock := by
  unfold withoutLockOf
  apply (findLock_works.mapError).seq
  rintro _ s ⟨rfl, rfl⟩
  cases h : s.lock dir with
  | none => exact rfl
  | some content =>
    apply ((openLock_works h).mapError).seq
    rintro _ opened hopened
    have hstart := ReadSoFar.start h
    rw [← hopened] at hstart
    apply ((lockMetadata_works hstart.found).mapError).seq
    rintro _ _ ⟨rfl, rfl⟩
    dsimp only
    by_cases hsize : content.length ≤ maxSessionLockBytes
    · rw [if_neg (by simp), if_neg (by omega)]
      apply ((hstart.readToEnd (by omega) (by omega)).mapError).seq
      intro all s₁ hread
      rw [hread.1, if_neg (by omega)]
      by_cases howner : ownerOf content = textBytes owner
      · rw [if_neg (by simpa using howner), if_pos ⟨hsize, howner⟩]
        apply ((removeLock_works hread.2.found).mapError).seq
        rintro _ _ rfl
        apply Ensures.mono syncParent_works
        rintro _ _ ⟨_, -, rfl⟩
        rw [hread.2.sameLock]
      · rw [if_pos howner, if_neg fun hboth => howner hboth.2]
        exact hread.2.sameLock
    · rw [if_neg (by simp), if_pos (by omega), if_neg fun hboth => hsize hboth.1]
      exact hstart.sameLock

/-! ## The recorder -/

/-- The steps of the recorder's calls. -/
def recordingStep (answers : StoreAnswers) : Steps storeSig Disk :=
  expandedSteps (workingStep answers) sessionCalls

theorem writeAll_works (dir : Path) (rounds : Nat) (bytes : Bytes) (s : Disk) :
    Achieves (workingStep answers) s (writeAll dir rounds bytes) fun _ s' => s'.lock = s.lock := by
  induction rounds generalizing bytes s with
  | zero => exact .pure rfl
  | succ rounds ih =>
    unfold writeAll
    split
    · exact .pure rfl
    next hbytes =>
    have hwrite : Achieves (workingStep answers) s (writeLog dir bytes) fun written s' =>
        written ≠ 0 ∧ s'.lock = s.lock := by
      rintro r s' ⟨hstep, written, rfl, hpositive⟩
      refine ⟨written, rfl, ?_, ?_⟩
      · exact Nat.pos_iff_ne_zero.mp (hpositive hbytes)
      · rw [hstep.2]
    apply hwrite.bind
    rintro written s₁ ⟨hne, hlock⟩
    rw [if_neg hne, ← hlock]
    exact ih _ _

section Calls

variable (caller : Caller)

theorem storeCall_works {s s' o r} (h : Run (workingStep answers) (performFile (.store o)) s r s') :
    s' = s ∧ storeSucceeds answers o.2 r := by
  cases h with
  | call hstep hret =>
    cases hret
    exact ⟨hstep.1, hstep.2⟩

theorem storeCheckpoint_works :
    Achieves (recordingStep answers) s (checkpoint caller) fun _ s' => s' = s := by
  intro r s' h
  obtain ⟨hs, hok⟩ := storeCall_works h
  exact ⟨(), hok, hs⟩

theorem storeProbe_works {what} :
    Achieves (recordingStep answers) s (probe caller what) fun _ s' => s' = s := by
  intro r s' h
  obtain ⟨hs, hok⟩ := storeCall_works h
  exact ⟨(), hok, hs⟩

theorem timestamp_works : Achieves (recordingStep answers) s (timestamp caller) fun finish s' =>
      finish = answers.finish ∧ s' = s := by
  intro r s' h
  obtain ⟨hs, hfinish⟩ := storeCall_works h
  exact ⟨r, rfl, hfinish, hs⟩

theorem committedReport_works {t} :
    Achieves (recordingStep answers) s (committedReport caller t) fun found s' =>
      found = some answers.committed ∧ s' = s := by
  intro r s' h
  obtain ⟨hs, hfound⟩ := storeCall_works h
  exact ⟨r, rfl, hfound, hs⟩

theorem appendSession_works {root line} :
    Achieves (recordingStep answers) s (appendSession caller root line) fun _ s' =>
      s'.lock = s.lock := by
  intro r s' h
  have hwrite : Achieves (workingStep answers) s (writeRecord root line) fun _ s' =>
      s'.lock = s.lock := by
    apply (writeAll_works root _ _ s).bind
    intro _ s₁ hlock
    rw [← hlock]
    exact writeAll_works ..
  exact hwrite.run h

theorem removeSessionLock_works {root owner} :
    Ensures (recordingStep answers) s (removeSessionLock caller root owner).run fun _ s' =>
      s'.lock = withoutLockOf root owner s.lock := by
  intro r s' h
  exact removeOwnedSessionLock_works.run h

end Calls

/-- The line is short enough to be written. -/
def Fits (line : String) : Prop := line.utf8ByteSize ≤ maxSessionRecordBytes

instance (line : String) : Decidable (Fits line) :=
  inferInstanceAs (Decidable (line.utf8ByteSize ≤ maxSessionRecordBytes))

section Recorder

variable {outputRoot : Path} (caller : Caller)
  -- with the rendering left open, no goal below is evaluated on the record's text
  (render : SessionRecord → String)

theorem appendSessionRecordLocked_works {line} (h : Fits line) :
    Achieves (recordingStep answers) s (appendSessionRecordLocked outputRoot caller line)
      fun _ s' => s'.lock = s.lock := by
  unfold appendSessionRecordLocked
  rw [if_neg (Nat.not_lt.mpr h)]
  refine (storeCheckpoint_works caller).past fun _ => ?_
  refine ((storeProbe_works caller).mapError).past fun _ => ?_
  refine (storeProbe_works caller).past fun _ => ?_
  refine (storeCheckpoint_works caller).past fun _ => ?_
  apply ((appendSession_works caller).mapError).bind
  intro _ s₁ hlock
  refine ((storeProbe_works caller).mapError).past fun _ => ?_
  refine (storeProbe_works caller).past fun _ => ?_
  apply (storeCheckpoint_works caller).mono
  rintro _ _ rfl
  exact hlock

/-- Too long a line ends the call before anything is touched. -/
theorem appendSessionRecordLocked_refuses {line} (h : ¬ Fits line) :
    Ensures (recordingStep answers) s (appendSessionRecordLocked outputRoot caller line).run
      fun result s' => (∃ e, result = .error e) ∧ s' = s := by
  unfold appendSessionRecordLocked
  rw [if_pos (Nat.lt_of_not_le h)]
  exact ⟨⟨_, rfl⟩, rfl⟩

theorem acquireSessionLogLock_works :
    Achieves (recordingStep answers) s (acquireSessionLogLock caller) fun _ s' => s' = s := by
  refine (storeCheckpoint_works caller).past fun _ => ?_
  refine (storeProbe_works caller).past fun _ => ?_
  refine (storeCheckpoint_works caller).past fun _ => ?_
  exact storeProbe_works caller

/-- The owner's lock is removed from the output root, or nothing is when the
line is too long. -/
theorem recordCrash_works {session committed reportPath} : Ensures (recordingStep answers) s
      (recordCrash outputRoot render caller session committed reportPath).run fun _ s' =>
        s'.lock = if Fits (render (crashRecord session committed reportPath answers.finish)) then
          withoutLockOf outputRoot session.id s.lock else s.lock := by
  refine (storeCheckpoint_works caller).past fun _ => ?_
  refine (storeCheckpoint_works caller).past fun _ => ?_
  refine ((storeProbe_works caller).mapError).past fun _ => ?_
  apply (timestamp_works caller).seq
  rintro _ _ ⟨rfl, rfl⟩
  refine (acquireSessionLogLock_works caller).past fun _ => ?_
  by_cases hfit : Fits (render (crashRecord session committed reportPath answers.finish))
  · rw [if_pos hfit]
    apply (appendSessionRecordLocked_works caller hfit).seq
    intro _ s₁ hlock
    rw [← hlock]
    apply Ensures.attempt (removeSessionLock_works caller)
    intro _ s₂ hremoved
    apply Ensures.mono (storeCheckpoint_works caller)
    rintro _ _ ⟨_, -, rfl⟩
    exact hremoved
  · rw [if_neg hfit, Attempt.run_bind]
    apply (appendSessionRecordLocked_refuses caller hfit).seq
    rintro _ s₁ ⟨⟨e, rfl⟩, rfl⟩
    exact rfl

theorem sessionRecorder_works {event session}
    (hcrash : event.reportType = .crash) (hsession : event.session = some session) :
    Ensures (recordingStep answers) s (sessionRecorder outputRoot render caller event).run
      fun _ s' => s'.lock = if Fits (render (crashRecord session answers.committed
          event.reportPath answers.finish)) then withoutLockOf outputRoot session.id s.lock
        else s.lock := by
  refine (storeCheckpoint_works caller).past fun _ => ?_
  rw [if_neg (by simp [hcrash])]
  apply Ensures.attempt
  · unfold recordSession
    rw [hsession]
    apply (committedReport_works caller).seq
    rintro _ _ ⟨rfl, rfl⟩
    exact recordCrash_works caller render
  · intro _ s₁ h
    apply Ensures.mono (storeCheckpoint_works caller)
    rintro _ _ ⟨_, -, rfl⟩
    exact h

end Recorder

/-! ## The two first lines -/

/-- A line in front of another is ended by its newline. -/
theorem nextLine_of_rest {text line rest}
    (h : nextLine text = some (line, rest)) (hrest : rest ≠ []) :
    line = stripReturn (text.takeWhile (· ≠ '\n')) := by
  unfold nextLine at h
  split at h
  · cases h
  · cases h
    exact absurd rfl hrest
  · cases h
    rfl

theorem stripReturn_eq_self_iff (line : List Char) :
    stripReturn line = line ↔ line.getLast? ≠ some '\r' := by
  unfold stripReturn
  split
  next hreturn =>
    constructor
    · intro h
      have hlength := congrArg List.length h
      rw [length_dropLast] at hlength
      have hnil : line = [] := length_eq_zero_iff.mp (by omega)
      rw [hnil] at hreturn
      cases hreturn
    · intro h
      exact absurd hreturn h
  next hreturn => simpa using hreturn

theorem accepted_lines {id start} (h : acceptFile content = some (id, start)) :
    content.length ≤ maxSessionLockBytes ∧ ∃ text, content = Utf8.encode text ∧
      id = .ofList (stripReturn (text.takeWhile (· ≠ '\n'))) := by
  unfold acceptFile at h
  split at h
  · cases h
  next hsize =>
  unfold acceptLock at h
  split at h
  · cases h
  simp only [Option.bind_eq_bind, Option.bind_eq_some_iff] at h
  obtain ⟨text, htext, ⟨line, rest⟩, hline, ⟨start', rest'⟩, hstart, heq⟩ := h
  have hrest : rest ≠ [] := by
    rintro rfl
    cases hstart
  have hid : id = .ofList line := (congrArg Prod.fst (Option.some.inj heq)).symm
  refine ⟨by omega, text, (Utf8.decode_eq_some_iff.mp htext).symm, ?_⟩
  rw [hid, nextLine_of_rest hline hrest]

/-- The remover takes the first line of an accepted lock for the owner's exactly
if the reader had no carriage return to drop. -/
theorem owner_of_accepted {id start} (h : acceptFile content = some (id, start)) :
    ownerOf content = textBytes id ↔ (ownerOf content).getLast? ≠ some carriageReturn := by
  obtain ⟨-, text, rfl, rfl⟩ := accepted_lines h
  have howner : ownerOf (Utf8.encode text) = Utf8.encode (text.takeWhile (· ≠ '\n')) :=
    Utf8.takeWhile_encode (a := '\n') (by decide) text
  rw [howner, textBytes, String.toList_ofList]
  have hreturn := Utf8.getLast?_encode (a := '\r') (by decide) (text.takeWhile (· ≠ '\n'))
  rw [show .ofNat '\r'.toNat = carriageReturn from rfl] at hreturn
  rw [ne_eq, hreturn, ← ne_eq, ← stripReturn_eq_self_iff]
  constructor
  · intro heq
    exact (Utf8.encode_injective heq).symm
  · intro heq
    rw [heq]

/-! ## The session is closed -/

section Closing

variable {startTimestamp : String → Int} {caller : Caller} {dataDir outputRoot : Path}
  {session : SessionReport} {event : FinishedEvent} {result : Except String Unit} {s₁ s₂ : Disk}
  (hlock : s.lock dataDir = some content)
  (hread : Run (workingStep answers) (readSessionLock startTimestamp caller (.ok dataDir)).run
    s (.ok session) s₁)
include hlock hread

/-- What was read is what was in the lock, and no lock changed. -/
theorem accepted_of_read :
    acceptFile content = some (session.id, session.start) ∧ s₁.lock = s.lock := by
  obtain ⟨hlocks, haccepted⟩ := (readSessionLock_works hlock).run hread
  refine ⟨?_, hlocks⟩
  cases haccept : acceptFile content with
  | none =>
    rw [haccept] at haccepted
    obtain ⟨e, he⟩ := haccepted
    cases he
  | some lines =>
    rw [haccept] at haccepted
    obtain ⟨now, hsession⟩ := haccepted
    cases hsession
    rfl

variable (hcrash : event.reportType = .crash) (hsession : event.session = some session)
  (hrecord : Run (workingStep answers)
    ((sessionRecorder outputRoot renderRecord caller event).run.expand sessionCalls) s₁ result s₂)
include hcrash hsession hrecord

/-- The lock that was read, after the record. -/
theorem lock_after_record :
    s₂.lock dataDir = if outputRoot = dataDir ∧ ownerOf content = textBytes session.id ∧
        Fits (renderRecord (crashRecord session answers.committed event.reportPath answers.finish))
      then none else some content := by
  obtain ⟨haccept, hlocks⟩ := accepted_of_read hlock hread
  have hafter :=
    (sessionRecorder_works caller renderRecord hcrash hsession).run (run_expand hrecord)
  rw [hlocks] at hafter
  by_cases hfit : Fits
      (renderRecord (crashRecord session answers.committed event.reportPath answers.finish))
  · rw [hafter, if_pos hfit, withoutLockOf_apply hlock (accepted_lines haccept).1]
    simp only [hfit, and_true]
  · rw [hafter, if_neg hfit, hlock, if_neg fun h => hfit h.2.2]

/-- The lock of a recorded crash is gone exactly if it was read from the
directory it is removed from, its first line does not end with a carriage
return, and the record of this run could be written. -/
theorem recorded_crash_closes_session_iff :
    s₂.lock dataDir = none ↔
      outputRoot = dataDir ∧ (ownerOf content).getLast? ≠ some carriageReturn ∧ Fits
        (renderRecord (crashRecord session answers.committed event.reportPath answers.finish)) := by
  rw [lock_after_record hlock hread hcrash hsession hrecord,
    ← owner_of_accepted (accepted_of_read hlock hread).1]
  simp

end Closing

/-! ## A monitor at work -/

/-- The crash was committed in the data directory. -/
def committedHere : StoreAnswers where
  committed := ⟨⟨"55555555555555555555555555555555", by decide +kernel⟩, ["data"], []⟩
  finish := "2024-01-01T00:00:00Z"

/-- A system on which every call does what it is asked for. -/
def respond : (o : FileOp) → Disk → o.Res × Disk
  | .store (_, .checkpoint), s => (.ok (), s)
  | .store (_, .probe _), s => (.ok (), s)
  | .store (_, .committedReport _), s => (some committedHere.committed, s)
  | .store (_, .timestamp), s => (committedHere.finish, s)
  | .store o, s => (o.2.unasked, s)
  | .currentTime, s => ((0 : Int), s)
  | .findLock dir, s => (.ok (s.lock dir).isSome, s)
  | .openLock dir, s =>
    if (s.lock dir).isSome then (.ok (), { s with position := 0 })
    else (.error "not found", s)
  | .lockMetadata dir, s =>
    match s.lock dir with
    | some content => (.ok ⟨true, content.length, true⟩, s)
    | none => (.error "not found", s)
  | .readLock dir limit, s =>
    match s.lock dir with
    | some content =>
      let chunk := (content.drop s.position).take limit
      (.ok chunk, { s with position := s.position + chunk.length })
    | none => (.error "not found", s)
  | .removeLock dir, s =>
    if (s.lock dir).isSome then
      (.ok (), { s with lock := update s.lock dir none })
    else (.error "not found", s)
  | .syncParent _, s => (.ok (), s)
  | .writeLog dir bytes, s =>
    (.ok bytes.length, { s with log := update s.log dir (s.log dir ++ bytes) })

theorem respond_works (o : FileOp) (s : Disk) :
    workingStep committedHere o s (respond o s).1 (respond o s).2 := by
  cases o with
  | store o =>
    obtain ⟨caller, o⟩ := o
    cases o <;> exact ⟨rfl, by first | exact rfl | exact trivial⟩
  | currentTime => exact ⟨rfl, trivial⟩
  | findLock dir => exact ⟨⟨rfl, rfl⟩, rfl⟩
  | openLock dir =>
    by_cases h : (s.lock dir).isSome
    · rw [show respond (.openLock dir) s = (.ok (), { s with position := 0 }) from if_pos h]
      exact ⟨⟨h, rfl⟩, fun _ => rfl⟩
    · rw [show respond (.openLock dir) s = (.error "not found", s) from if_neg h]
      exact ⟨rfl, fun hsome => absurd hsome h⟩
  | lockMetadata dir =>
    cases h : s.lock dir with
    | none =>
      simp only [respond, h]
      exact ⟨rfl, fun hsome => absurd hsome (by simp [h])⟩
    | some content =>
      simp only [respond, h]
      exact ⟨⟨⟨content, h, rfl⟩, rfl⟩, fun _ => rfl⟩
  | readLock dir limit =>
    cases h : s.lock dir with
    | none =>
      simp only [respond, h]
      exact ⟨rfl, fun hsome => absurd hsome (by simp [h])⟩
    | some content =>
      simp only [respond, h]
      exact ⟨⟨⟨content, h, prefix_rfl, id⟩, rfl⟩, fun _ => rfl⟩
  | removeLock dir =>
    by_cases h : (s.lock dir).isSome
    · rw [show respond (.removeLock dir) s =
        (.ok (), { s with lock := update s.lock dir none }) from if_pos h]
      exact ⟨⟨h, rfl⟩, fun _ => rfl⟩
    · rw [show respond (.removeLock dir) s = (.error "not found", s) from if_neg h]
      exact ⟨rfl, fun hsome => absurd hsome h⟩
  | syncParent dir => exact ⟨rfl, rfl⟩
  | writeLog dir bytes =>
    refine ⟨⟨Nat.le_refl _, ?_⟩, bytes.length, rfl, length_pos_iff.mpr⟩
    rw [take_length]
    rfl

/-- A session's lock in the data directory, and nothing else. -/
def lockedDisk (content : Bytes) : Disk where
  lock := update (fun _ => none) ["data"] (some content)
  log := fun _ => []
  position := 0

theorem lockedDisk_lock : (lockedDisk content).lock ["data"] = some content := by
  simp [lockedDisk]

def recordingCaller : Caller := ⟨0, .other⟩

/-- The session read from the lock of a process that started at the epoch. -/
def readSession : SessionReport := ⟨"s1", "17", 0⟩

/-- A crash committed with the session. -/
def sessionCrash : FinishedEvent := ⟨⟨0, 1⟩, .crash, some readSession, some "report.json"⟩

/-- The lock was read and the crash recorded. -/
def Recorded (outputRoot : Path) (content : Bytes) (s₁ s₂ : Disk) (result : Except String Unit) :
    Prop :=
  Run (workingStep committedHere) (readSessionLock (fun _ => 0) recordingCaller (.ok ["data"])).run
      (lockedDisk content) (.ok readSession) s₁ ∧
    Run (workingStep committedHere) ((sessionRecorder outputRoot renderRecord recordingCaller
      sessionCrash).run.expand sessionCalls) s₁ result s₂

/-- Every lock of the session can be read and its crash recorded. -/
theorem exists_recorded (outputRoot : Path) (h : acceptFile content = some ("s1", "17")) :
    ∃ s₁ s₂ result, Recorded outputRoot content s₁ s₂ result := by
  have hread : Run (workingStep committedHere)
      (readSessionLock (fun _ => 0) recordingCaller (.ok ["data"])).run
      (lockedDisk content) _ _ := .of_exec respond_works _ _
  obtain ⟨-, haccepted⟩ := (readSessionLock_works lockedDisk_lock).run hread
  rw [h] at haccepted
  obtain ⟨now, hresult⟩ := haccepted
  rw [hresult] at hread
  exact ⟨_, _, _, hread, .of_exec respond_works _ _⟩

/-- `s1`, started at 17. -/
def plainLock : Bytes := Utf8.encode ['s', '1', '\n', '1', '7', '\n']

/-- The same with carriage returns in front of the newlines. -/
def returnLock : Bytes := Utf8.encode ['s', '1', '\r', '\n', '1', '7', '\r', '\n']

theorem plainLock_accepted : acceptFile plainLock = some ("s1", "17") := by rfl

theorem returnLock_accepted : acceptFile returnLock = some ("s1", "17") := by rfl

/-- With the data directory as output root the lock is gone. -/
theorem plain_session_closed :
    ∃ s₁ s₂ result, Recorded ["data"] plainLock s₁ s₂ result ∧ s₂.lock ["data"] = none := by
  obtain ⟨s₁, s₂, result, hrecorded⟩ := exists_recorded ["data"] plainLock_accepted
  refine ⟨s₁, s₂, result, hrecorded, ?_⟩
  rw [recorded_crash_closes_session_iff lockedDisk_lock hrecorded.1 rfl rfl hrecorded.2]
  exact ⟨rfl, by decide, by decide +kernel⟩

/-- In the roots the monitor uses, the lock that was read stays; and it stays
in any root when its lines end with a carriage return. -/
theorem recorded_session_lock_stays :
    (∃ s₁ s₂ result, Recorded ["data", "crashes", "pending"] plainLock s₁ s₂ result ∧
      s₂.lock ["data"] = some plainLock) ∧
    ∃ s₁ s₂ result, Recorded ["data"] returnLock s₁ s₂ result ∧
      s₂.lock ["data"] = some returnLock := by
  constructor
  · obtain ⟨s₁, s₂, result, hrecorded⟩ :=
      exists_recorded ["data", "crashes", "pending"] plainLock_accepted
    refine ⟨s₁, s₂, result, hrecorded, ?_⟩
    rw [lock_after_record lockedDisk_lock hrecorded.1 rfl rfl hrecorded.2, if_neg]
    intro h
    exact absurd h.1 (by decide)
  · obtain ⟨s₁, s₂, result, hrecorded⟩ := exists_recorded ["data"] returnLock_accepted
    refine ⟨s₁, s₂, result, hrecorded, ?_⟩
    rw [lock_after_record lockedDisk_lock hrecorded.1 rfl rfl hrecorded.2, if_neg]
    intro h
    have haccepted := (accepted_of_read lockedDisk_lock hrecorded.1).1
    exact (owner_of_accepted haccepted).mp h.2.1 (by decide)

end CrashMonitor.Session
