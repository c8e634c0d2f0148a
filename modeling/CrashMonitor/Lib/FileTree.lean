import CrashMonitor.Lib.Attempt
import CrashMonitor.Lib.History

/-!
# A tree of files and the calls on it

Directories hold entries by name, nodes carry their own kind, owner, mode and
content, and an open handle is the node itself: it follows the node through
renames. The calls are the descriptor-relative ones of a POSIX system, none of
which follows a link in the last component. A call that fails changes nothing.

Nothing is assumed about other processes. `Interleave.witnessed` runs a program
with the tree changed at will between its calls; a result about such runs is
one about every interference.
-/

namespace CrashMonitor.FileTree

open Interleave Function

inductive NodeKind where
  | directory
  | file
  | symlink
  | other
  deriving DecidableEq, Repr

structure Node where
  kind : NodeKind
  owner : Nat
  mode : Nat
  /-- The node has an extended access list, and one that grants access. -/
  extendedAcl : Bool
  allowingAcl : Bool
  content : List UInt8

/-- What `fstat` tells of a node. -/
structure Metadata where
  kind : NodeKind
  owner : Nat
  mode : Nat
  length : Nat

def Node.metadata (node : Node) : Metadata :=
  ⟨node.kind, node.owner, node.mode, node.content.length⟩

structure Tree where
  entry : Nat → String → Option Nat
  node : Nat → Option Node

namespace Tree

variable (s : Tree) (d : Nat) (name : String)

def setEntry (child : Option Nat) : Tree :=
  { s with entry := update s.entry d (update (s.entry d) name child) }

variable (d' : Nat) (name' : String) (n : Nat)

def setNode (node : Node) : Tree := { s with node := update s.node n (some node) }

/-- The entry of a rename, with the node it moves. -/
def moveEntry : Tree := (s.setEntry d name none).setEntry d' name' (some n)

theorem setEntry_entry (child : Option Nat) (d' : Nat) (name' : String) :
    (s.setEntry d name child).entry d' name' =
      if d' = d ∧ name' = name then child else s.entry d' name' := by
  simp only [setEntry, update_apply]
  by_cases hd : d' = d
  · subst hd
    simp [update_apply]
  · simp [hd]

theorem moveEntry_entry (d'' : Nat) (name'' : String) :
    (s.moveEntry d name d' name' n).entry d'' name'' =
      if d'' = d' ∧ name'' = name' then some n
      else if d'' = d ∧ name'' = name then none else s.entry d'' name'' := by
  rw [moveEntry, setEntry_entry, setEntry_entry]

end Tree

/-! ## Calls -/

inductive Errno where
  | noEntry
  | denied
  | interrupted
  | other (text : String)
  deriving DecidableEq, Repr

def Errno.text : Errno → String
  | .noEntry => "No such file or directory"
  | .denied => "Permission denied"
  | .interrupted => "Interrupted system call"
  | .other text => text

inductive TreeOp where
  /-- The root directory, or the working directory. -/
  | openBase (absolute : Bool)
  | statAt (d : Nat) (name : String)
  | openAt (d : Nat) (name : String) (directory : Bool)
  | createAt (d : Nat) (name : String) (owner mode : Nat)
  | metadata (h : Nat)
  | extendedAcl (h : Nat)
  | allowingAcl (h : Nat)
  | setMode (h : Nat) (mode : Nat)
  | setModeAt (d : Nat) (name : String) (mode : Nat)
  | renameAt (exclusive : Bool) (d : Nat) (name : String) (d' : Nat) (name' : String)
  | unlinkAt (d : Nat) (name : String) (directory : Bool)
  | read (h : Nat) (offset length : Nat)
  | write (h : Nat) (data : List UInt8)
  | syncAll (h : Nat)
  | uuid
  /-- A call that changes nothing here, and is allowed to fail. -/
  | probe (what : String)
  deriving DecidableEq

def TreeOp.Res : TreeOp → Type
  | .openBase _ => Except Errno (Nat × String)
  | .statAt .. => Except Errno (Nat × Metadata)
  | .openAt .. | .createAt .. | .write .. => Except Errno Nat
  | .metadata _ => Except Errno Metadata
  | .extendedAcl _ | .allowingAcl _ => Except Errno Bool
  | .read .. => Except Errno (List UInt8)
  | .uuid => String
  | .setMode .. | .setModeAt .. | .renameAt .. | .unlinkAt .. | .syncAll _ | .probe _ =>
    Except Errno Unit

def treeSig : Sig := ⟨TreeOp, TreeOp.Res⟩

/-- A call that changes nothing when it fails. -/
def Served {α : Type} (s s' : Tree) (ok : α → Prop) : Except Errno α → Prop
  | .ok a => ok a
  | .error _ => s' = s

/-- What each call answers and does. -/
def treeStep : Steps treeSig Tree := fun o s r s' =>
  match o, r with
  | .openBase _, r => Served s s' (fun _ => s' = s) r
  -- a missing entry is the only cause of its error
  | .statAt d name, .error .noEntry => s.entry d name = none ∧ s' = s
  | .statAt d name, r => Served s s' (fun found => s.entry d name = some found.1 ∧
      (∃ node, s.node found.1 = some node ∧ found.2 = node.metadata) ∧ s' = s) r
  | .openAt d name directory, r => Served s s' (fun h => s.entry d name = some h ∧
      (∃ node, s.node h = some node ∧ node.kind ≠ .symlink ∧
        (directory = true → node.kind = .directory)) ∧ s' = s) r
  -- the mode a new file gets depends on the mask of the process
  | .createAt d name owner _, r => Served s s' (fun h => s.entry d name = none ∧
      s.node h = none ∧ ∃ mode, s' = (s.setEntry d name (some h)).setNode h
        ⟨.file, owner, mode, false, false, []⟩) r
  | .metadata h, r => Served s s' (fun found =>
    (∃ node, s.node h = some node ∧ found = node.metadata) ∧ s' = s) r
  | .extendedAcl h, r => Served s s' (fun found =>
    (∃ node, s.node h = some node ∧ found = node.extendedAcl) ∧ s' = s) r
  | .allowingAcl h, r => Served s s' (fun found =>
    (∃ node, s.node h = some node ∧ found = node.allowingAcl) ∧ s' = s) r
  | .setMode h mode, r => Served s s' (fun _ =>
    ∃ node, s.node h = some node ∧ s' = s.setNode h { node with mode := mode }) r
  | .setModeAt d name mode, r => Served s s' (fun _ =>
    ∃ h node, s.entry d name = some h ∧ s.node h = some node ∧
      s' = s.setNode h { node with mode := mode }) r
  | .renameAt exclusive d name d' name', r => Served s s' (fun _ =>
    (exclusive = true → s.entry d' name' = none) ∧
      ∃ n, s.entry d name = some n ∧ s' = s.moveEntry d name d' name' n) r
  | .unlinkAt d name directory, r => Served s s' (fun _ =>
    ∃ n node, s.entry d name = some n ∧ s.node n = some node ∧
      (directory = true ↔ node.kind = .directory) ∧ s' = s.setEntry d name none) r
  -- a read may return less than it was asked for, but nothing only at the end
  | .read h offset length, r => Served s s' (fun data =>
    ∃ node, s.node h = some node ∧ data.length ≤ length ∧
      data = (node.content.drop offset).take data.length ∧
      (data = [] → length = 0 ∨ node.content.length ≤ offset) ∧ s' = s) r
  -- a write may take only the first bytes
  | .write h data, r => Served s s' (fun count => count ≤ data.length ∧
      ∃ node, s.node h = some node ∧
        s' = s.setNode h { node with content := node.content ++ data.take count }) r
  | .syncAll _, r => Served s s' (fun _ => s' = s) r
  | .uuid, _ => s' = s
  | .probe _, r => Served s s' (fun _ => s' = s) r

/-! ## Entries -/

def makesEntry : TreeOp → Bool
  | .renameAt .. | .createAt .. => true
  | _ => false

theorem Served.entry_eq {α : Type} {s s' ok} {r : Except Errno α}
    (h : Served s s' ok r) (hok : ∀ a, ok a → s'.entry = s.entry) : s'.entry = s.entry := by
  cases r with
  | ok a => exact hok a h
  | error e => exact congrArg Tree.entry h

/-- Only a call that makes or removes an entry changes one. -/
theorem entry_of_step {o r} {s s' : Tree} (hstep : treeStep o s r s') :
    s'.entry = s.entry ∨ makesEntry o = true ∨
      ∃ d name directory, o = .unlinkAt d name directory ∧ s' = s.setEntry d name none := by
  cases o with
  | renameAt | createAt => exact .inr (.inl rfl)
  | uuid => exact .inl (congrArg Tree.entry hstep)
  | openBase | syncAll | probe => cases r <;> exact .inl (congrArg Tree.entry hstep)
  | statAt d name =>
    cases r with
    | ok found => exact .inl (congrArg Tree.entry hstep.2.2)
    | error e =>
      cases e with
      | noEntry => exact .inl (congrArg Tree.entry hstep.2)
      | _ => exact .inl (congrArg Tree.entry hstep)
  | unlinkAt d name directory =>
    cases r with
    | error e => exact .inl (congrArg Tree.entry hstep)
    | ok u =>
      obtain ⟨-, -, -, -, -, hs⟩ := hstep
      exact .inr (.inr ⟨d, name, directory, rfl, hs⟩)
  | openAt => exact .inl (Served.entry_eq hstep fun _ h => congrArg Tree.entry h.2.2)
  | metadata | extendedAcl | allowingAcl =>
    exact .inl (Served.entry_eq hstep fun _ h => congrArg Tree.entry h.2)
  | setMode | setModeAt | read | write =>
    refine .inl (Served.entry_eq hstep fun a h => ?_)
    grind [Tree.setNode]

/-! ## A system that serves the calls -/

def found {α : Type} : Option α → Except Errno α
  | some a => .ok a
  | none => .error .denied

/-- Looking at the tree and renaming in it always work; all else is denied. -/
def serve : (o : TreeOp) → Tree → o.Res × Tree
  | .openBase _, s => (.ok (0, "/"), s)
  | .statAt d name, s =>
    match s.entry d name with
    | none => (.error .noEntry, s)
    | some n => (found ((s.node n).map fun node => (n, node.metadata)), s)
  | .openAt d name directory, s => (found ((s.entry d name).filter fun n => (s.node n).any
      fun node => node.kind ≠ .symlink ∧ (directory = true → node.kind = .directory)), s)
  | .metadata h, s => (found ((s.node h).map Node.metadata), s)
  | .extendedAcl h, s => (found ((s.node h).map Node.extendedAcl), s)
  | .allowingAcl h, s => (found ((s.node h).map Node.allowingAcl), s)
  | .setMode h mode, s =>
    match s.node h with
    | some node => (.ok (), s.setNode h { node with mode := mode })
    | none => (.error .denied, s)
  | .renameAt _ d name d' name', s =>
    match s.entry d name, s.entry d' name' with
    | some n, none => (.ok (), s.moveEntry d name d' name' n)
    | _, _ => (.error .denied, s)
  | .syncAll _, s | .probe _, s => (.ok (), s)
  | .uuid, s => ("0", s)
  | .createAt .., s | .setModeAt .., s | .unlinkAt .., s | .read .., s | .write .., s =>
    (.error .denied, s)

theorem serve_step (o : TreeOp) (s : Tree) : treeStep o s (serve o s).1 (serve o s).2 := by
  cases o with
  | openBase | syncAll | probe | uuid | createAt | setModeAt | unlinkAt | read | write => exact rfl
  | metadata h | extendedAcl h | allowingAcl h =>
    cases hnode : s.node h <;> simp [serve, found, treeStep, Served, hnode]
  | statAt d name =>
    cases hentry : s.entry d name with
    | none => simp [serve, treeStep, hentry]
    | some n => cases hnode : s.node n <;> simp [serve, found, treeStep, Served, hentry, hnode]
  | openAt d name directory =>
    cases hentry : s.entry d name with
    | none => simp [serve, found, treeStep, Served, hentry]
    | some n =>
      simp only [serve, hentry, Option.filter_some]
      split
      · next h => exact ⟨hentry, by simpa [Option.any_eq_true, imp_iff_not_or] using h, rfl⟩
      · exact rfl
  | setMode h mode =>
    cases hnode : s.node h <;> simp [serve, treeStep, Served, hnode]
  | renameAt exclusive d name d' name' =>
    simp only [serve]
    split
    · next n hentry hfree => exact ⟨fun _ => hfree, n, hentry, rfl⟩
    · exact rfl

/-! ## Programs -/

abbrev Access := Attempt treeSig

/-- A call whose error is passed on as its text. -/
def fallible {α : Type} (o : TreeOp) (f : o.Res → Except Errno α) : Access α :=
  ExceptT.mk (.call (S := treeSig) o fun r => .ret ((f r).mapError Errno.text))

variable (d : Nat) (name : String)

def openBase (absolute : Bool) : Access (Nat × String) := fallible (.openBase absolute) id
def statAt : Access (Nat × Metadata) := fallible (.statAt d name) id
def openAt (directory : Bool) : Access Nat := fallible (.openAt d name directory) id
def metadata (h : Nat) : Access Metadata := fallible (.metadata h) id
def extendedAcl (h : Nat) : Access Bool := fallible (.extendedAcl h) id
def allowingAcl (h : Nat) : Access Bool := fallible (.allowingAcl h) id
def setMode (h mode : Nat) : Access Unit := fallible (.setMode h mode) id
def renameAt (exclusive : Bool) (d : Nat) (name : String) (d' : Nat) (name' : String) :
    Access Unit := fallible (.renameAt exclusive d name d' name') id
def unlinkAt (directory : Bool) : Access Unit := fallible (.unlinkAt d name directory) id
def syncAll (h : Nat) : Access Unit := fallible (.syncAll h) id
def probe (what : String) : Access Unit := fallible (.probe what) id
def uuid : Access String := Attempt.always (@Prog.op treeSig .uuid)

/-- A call whose error is looked at. -/
def tryStatAt : Access (Except Errno (Nat × Metadata)) :=
  Attempt.always (@Prog.op treeSig (.statAt d name))

end CrashMonitor.FileTree
