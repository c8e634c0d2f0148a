import CrashMonitor.Staging.State

/-!
# Through a temporary file

Every file of a report is written under a hidden name and then published. This
module has that pattern once: the file is complete under its final name, or it
is not there, with what can be left of it otherwise.
-/

namespace CrashMonitor.Staging

open Store Interleave Function

/-- A temporary file that is removed unless the body succeeds. -/
def removingOnError {α : Type} (temporary : String) (body : Task α) : Task α := do
  match ← body.outcome with
  | .ok a => pure a
  | .error e =>
    let _ ← remove temporary
    throw e

/-- A temporary file that is written and then published. -/
def publishThrough {α : Type} (temporary destination : String) (report : String → String)
    (body : Task α) : Task α := removingOnError temporary do
    let a ← body
    (publish temporary destination).mapError report
    pure a

/-! ## What may be new -/

/-- Files that were there are kept; only some may be new. -/
def Spares (new : String → Bytes → Prop) (files files' : Content) : Prop :=
  ∀ name, files' name = files name ∨
    files name = none ∧ ∃ data, files' name = some data ∧ new name data

namespace Spares

variable {new new' : String → Bytes → Prop} {files files' : Content}

theorem refl (files : Content) : Spares new files files := fun _ => .inl rfl

theorem mono (h : Spares new files files') (himp : ∀ name data, new name data → new' name data) :
    Spares new' files files' := by
  intro name
  apply (h name).imp_right
  rintro ⟨hnone, data, hdata, hnew⟩
  exact ⟨hnone, data, hdata, himp name data hnew⟩

theorem kept (h : Spares new files files') {name data}
    (hdata : files name = some data) : files' name = some data := by
  rcases h name with hsame | ⟨hnone, -⟩
  · exact hsame.trans hdata
  · cases hnone.symm.trans hdata

/-- A name that was free may be used or cleared. -/
theorem update {name d} (h : Spares new files files')
    (hfree : files name = none) (hnew : ∀ data, d = some data → new name data) :
    Spares new files (update files' name d) := by
  intro n
  by_cases hn : n = name
  · rw [hn, update_self]
    cases d with
    | none => exact .inl hfree.symm
    | some data => exact .inr ⟨hfree, data, rfl, hnew data rfl⟩
  · rw [update_of_ne hn]
    exact h n

end Spares

/-- What is left when a file could not be written or published. -/
def Abandoned (new : String → Bytes → Prop) (s s' : Folder) : Prop :=
  ∃ files read, s' = { s with files := files, taken := read } ∧ Spares new s.files files

theorem Abandoned.mono {new new' s s'}
    (h : Abandoned new s s') (himp : ∀ name data, new name data → new' name data) :
    Abandoned new' s s' := by
  obtain ⟨files, read, rfl, hspares⟩ := h
  exact ⟨files, read, rfl, hspares.mono himp⟩

namespace Folder

/-- A file on its way: the temporary one, and what has been read for it. -/
def copying (s : Folder) (temporary : String) (written taken : Bytes) : Folder :=
  { s with taken := taken }.setFile temporary (some written)

/-- The state while the temporary file is written. -/
abbrev Filling (s : Folder) (temporary : String) (s' : Folder) : Prop :=
  ∃ written read, s' = s.copying temporary written read

@[simp] theorem copying_files (s : Folder) (temporary : String) (written taken : Bytes) :
    (s.copying temporary written taken).files = update s.files temporary (some written) := rfl

theorem setFile_eq_self {s : Folder} {name data}
    (h : s.files name = data) : s.setFile name data = s := by
  rw [setFile, ← h, update_eq_self]

/-- A temporary file published under a free name. -/
theorem move_of_free {s : Folder} {temporary destination written data}
    (hfree : s.files temporary = none)
    (hdestination : (s.setFile temporary (some written)).files destination = none)
    (hdata : (s.setFile temporary (some written)).files temporary = some data) :
    s.files destination = none ∧
      (s.setFile temporary (some written)).moveFile temporary destination data =
        s.setFile destination (some written) := by
  have hne : destination ≠ temporary := by
    intro heq
    rw [heq] at hdestination
    cases hdestination.symm.trans (update_self ..)
  cases (update_self ..).symm.trans hdata
  rw [setFile_files, update_of_ne hne] at hdestination
  refine ⟨hdestination, ?_⟩
  -- the temporary name is free again
  have hclear : update s.files temporary none = s.files := hfree ▸ update_eq_self ..
  simp [moveFile, setFile, hclear]

end Folder

section Does

variable {reliable : Bool} {s : Folder}

theorem reads_probe (what : String) : Reads reliable s (probe what) fun _ => True :=
  fun _ _ hstep => ⟨hstep, fun _ _ => trivial⟩

theorem reads_checkpoint : Reads reliable s checkpoint fun _ => True := reads_probe _

theorem reads_uuid : Reads reliable s uuid fun _ => True :=
  fun _ _ hstep => ⟨hstep, fun _ _ => trivial⟩

/-- What a failed publication of a temporary file leaves besides it. -/
theorem Abandoned.of_unpublished {source destination written read s'}
    (hfree : s.files source = none)
    (h : Unpublished reliable source destination (s.copying source written read) s') :
    s'.taken = read ∧ ∃ nonce, Abandoned (fun name data => name = source ∨
      (s.files destination = none ∧ data = written) ∧
        (name = quarantineName nonce ∨ reliable = false ∧ name = destination)) s s' := by
  have hother : ∀ {name : String}, (s.copying source written read).files name = none →
      s.files name = none := by
    intro name hname
    by_cases hn : name = source
    · rw [hn]
      exact hfree
    · rwa [Folder.copying_files, update_of_ne hn] at hname
  rcases h with rfl | ⟨hdestination, data, hdata, h⟩
  · exact ⟨rfl, "", _, read, rfl, (Spares.refl _).update hfree fun _ _ => .inl rfl⟩
  cases (update_self ..).symm.trans hdata
  have hgone : ∀ nonce, Spares (fun name data => name = source ∨
      (s.files destination = none ∧ data = written) ∧
        (name = quarantineName nonce ∨ reliable = false ∧ name = destination)) s.files
      (update (update s.files source (some written)) source none) := fun nonce =>
    ((Spares.refl _).update hfree fun _ _ => .inl rfl).update hfree (by simp)
  rcases h with rfl | ⟨nonce, hnonce, rfl⟩ | ⟨hreliable, rfl⟩
  · exact ⟨rfl, "", _, read, rfl, hgone ""⟩
  · refine ⟨rfl, nonce, _, read, rfl, (hgone nonce).update (hother hnonce) ?_⟩
    rintro _ ⟨⟩
    exact .inr ⟨⟨hother hdestination, rfl⟩, .inl rfl⟩
  · refine ⟨rfl, "", _, read, rfl, (hgone "").update (hother hdestination) ?_⟩
    rintro _ ⟨⟩
    exact .inr ⟨⟨hother hdestination, rfl⟩, .inr ⟨hreliable, rfl⟩⟩

/-- A file is gone, unless it resists. -/
def Removed (reliable : Bool) (name : String) (s s' : Folder) : Prop :=
  s' = s.setFile name none ∨ reliable = false ∧ s' = s

theorem does_removingOnError {α : Type} {temporary body} {Q : α → Folder → Prop} {E}
    (hbody : Does reliable s body Q E) : Does reliable s (removingOnError temporary body) Q
      fun s' => ∃ s₁, E s₁ ∧ Removed reliable temporary s₁ s' := by
  apply hbody.outcome
  · exact fun a s' h => .pure h
  intro e s₁ h r s' hstep
  refine ⟨s₁, h, ?_⟩
  have hmissing : s₁.files temporary = none → s₁ = s₁.setFile temporary none :=
    fun hnone => (Folder.setFile_eq_self hnone).symm
  cases r with
  | ok u => exact .inl hstep.2
  | error e =>
    cases e with
    | missing => exact .inl (hstep.2.trans (hmissing hstep.1))
    | _ =>
      cases reliable with
      | true => exact .inl (hstep.2.trans (hmissing (hstep.1 rfl)))
      | false => exact .inr ⟨rfl, hstep.2⟩

/-- What is new besides the temporary file may stay. -/
theorem Abandoned.removed {temporary s₁ s'} {new : String → Bytes → Prop}
    (hfree : s.files temporary = none)
    (h : Abandoned (fun name data => name = temporary ∨ new name data) s s₁)
    (hremoved : Removed reliable temporary s₁ s') :
    Abandoned (fun name data => new name data ∨ reliable = false ∧ name = temporary) s s' := by
  obtain ⟨files, read, rfl, hspares⟩ := h
  rcases hremoved with rfl | ⟨hreliable, rfl⟩
  · refine ⟨_, read, rfl, fun name => ?_⟩
    by_cases hname : name = temporary
    · exact .inl (by rw [hname, hfree]; exact update_self ..)
    rw [update_of_ne hname]
    apply (hspares name).imp_right
    rintro ⟨hnone, data, hdata, hnew⟩
    exact ⟨hnone, data, hdata, .inl (hnew.resolve_left hname)⟩
  · refine ⟨files, read, rfl, hspares.mono fun name data hnew => ?_⟩
    rcases hnew with rfl | hnew
    · exact .inr ⟨hreliable, rfl⟩
    · exact .inl hnew

/-- The new files a publication may leave behind when it fails: the file itself,
set aside after it was complete, and what resists removal. -/
def Leftover (reliable : Bool) (temporary destination nonce : String) (final : Bytes → Prop)
    (name : String) (data : Bytes) : Prop :=
  final data ∧ (name = quarantineName nonce ∨ reliable = false ∧ name = destination) ∨
    reliable = false ∧ name = temporary

/-- A body that writes a temporary file leaves it published, with what it has
written, or leaves nothing, if removals work, but the complete file set aside. -/
theorem does_publishThrough {α : Type} {temporary destination : String}
    {report body} {P : α → Bytes → Bytes → Prop}
    {written read : Bytes} (hfree : s.files temporary = none)
    (hbody : Does reliable (s.copying temporary written read) body
      (fun a s' => ∃ written read, P a written read ∧ s' = s.copying temporary written read)
      (s.Filling temporary)) : Does reliable (s.copying temporary written read)
      (publishThrough temporary destination report body)
      (fun a s' => ∃ written read, P a written read ∧ s.files destination = none ∧
        s' = s.copying destination written read)
      fun s' => ∃ nonce, Abandoned (Leftover reliable temporary destination nonce fun data =>
        s.files destination = none ∧ ∃ a, P a data s'.taken) s s' := by
  have hrest : Does reliable (s.copying temporary written read) (do
        let a ← body
        (publish temporary destination).mapError report
        pure a)
      (fun a s' => ∃ written read, P a written read ∧ s.files destination = none ∧
        s' = s.copying destination written read)
      fun s' => ∃ nonce, Abandoned (fun name data => name = temporary ∨
        (s.files destination = none ∧ ∃ a, P a data s'.taken) ∧
          (name = quarantineName nonce ∨ reliable = false ∧ name = destination)) s s' := by
    refine (hbody.weaken ?_).bind ?_
    · rintro _ ⟨written, read, rfl⟩
      exact ⟨"", _, read, rfl, (Spares.refl _).update hfree fun _ _ => .inl rfl⟩
    rintro a _ ⟨written, read, hP, rfl⟩
    refine .bind (.mapError ?_) fun _ s' h => .pure h
    intro r s' hstep
    cases r with
    | error e =>
      obtain ⟨htaken, nonce, habandoned⟩ := Abandoned.of_unpublished hfree hstep
      refine ⟨nonce, habandoned.mono fun name data hnew => hnew.imp_right ?_⟩
      rintro ⟨⟨hdestination, rfl⟩, hname⟩
      exact ⟨⟨hdestination, a, htaken ▸ hP⟩, hname⟩
    | ok u =>
      obtain ⟨hdestination, data, hdata, rfl⟩ := hstep
      have hmoved := Folder.move_of_free (s := { s with taken := read }) hfree hdestination hdata
      exact ⟨written, read, hP, hmoved.1, hmoved.2⟩
  apply (does_removingOnError hrest).weaken
  rintro s' ⟨s₁, ⟨nonce, habandoned⟩, hremoved⟩
  have htaken : s'.taken = s₁.taken := by
    rcases hremoved with rfl | ⟨-, rfl⟩ <;> rfl
  rw [htaken]
  exact ⟨nonce, habandoned.removed hfree hremoved⟩

/-- `write_all`, as far as it gets. -/
theorem does_writeAll {temporary old read} (data : Bytes) :
    Does reliable (s.copying temporary old read) (writeAll temporary data)
      (fun _ s' => s' = s.copying temporary (old ++ data) read) (s.Filling temporary) := by
  have hset : ∀ written, (s.copying temporary old read).setFile temporary (some written) =
      s.copying temporary written read := by
    intro written
    simp [Folder.copying, Folder.setFile]
  intro r s' hstep
  cases r with
  | ok u =>
    obtain ⟨old', hold, rfl⟩ := hstep
    cases (update_self ..).symm.trans hold
    exact hset _
  | error e =>
    rcases hstep with rfl | ⟨old', part, -, -, rfl⟩
    · exact ⟨old, read, rfl⟩
    · exact ⟨_, read, hset _⟩

/-- The temporary file itself is made under a free name. -/
theorem does_create (temporary : String) : Does reliable s (create temporary)
      (fun _ s' => s.files temporary = none ∧ s' = s.copying temporary [] s.taken)
      (Abandoned (fun name _ => reliable = false ∧ name = temporary) s) := by
  intro r s' hstep
  cases r with
  | ok u => exact hstep
  | error e =>
    rcases hstep with rfl | ⟨hreliable, hfree, rfl⟩
    · exact ⟨_, s'.taken, rfl, .refl _⟩
    · exact ⟨_, s.taken, rfl, (Spares.refl _).update hfree fun _ _ => ⟨hreliable, rfl⟩⟩

end Does

end CrashMonitor.Staging
