import CrashMonitor.Files.Publish
import Mathlib.Data.List.Basic

/-!
# The source of an attachment

`open_attachment_source` of `collectors/attachment.rs` and the checks of the
opened file. The registered path comes from the crashed process, and its
directories may be renamed at any time during the walk.
-/

namespace CrashMonitor.Files

open FileTree Interleave List

def maxAttachmentSize : Nat := 50 * 1024 * 1024

/-- `AllowedSourceRoot`. -/
structure AllowedSourceRoot where
  path : String
  directory : Nat

/-- The names of a path that has only normal components. -/
def normalComponents : List PathComponent → Except String (List String)
  | [] => .ok []
  | .normal name :: rest => do
    let names ← normalComponents rest
    pure (name :: names)
  | _ :: _ => .error "attachment path contains a non-normal component"

/-- `Path::strip_prefix`. -/
def stripComponents : List PathComponent → List PathComponent → Option (List PathComponent)
  | path, [] => some path
  | [], _ :: _ => none
  | c :: path, r :: root => if c = r then stripComponents path root else none

/-- The parents of a file, each opened from the one before. -/
def walkParents : Nat → List String → Access Nat
  | d, [] => pure d
  | d, name :: rest => do
    let next ← (openAt d name true).mapError fun e =>
      s!"open attachment directory component failed: {e}"
    let found ← (metadata next).mapError fun e => s!"fstat attachment directory failed: {e}"
    if found.kind ≠ .directory then throw "attachment path component is not a directory"
    else walkParents next rest

/-- The walk below one root. -/
def openBelow (root : Nat) (components : List PathComponent) : Access Nat := do
  let names ← Attempt.done (normalComponents components)
  match names.getLast? with
  | none => throw "attachment path has no filename"
  | some fileName =>
    (probe "clone the root descriptor").mapError fun e =>
      s!"clone attachment root descriptor failed: {e}"
    let d ← walkParents root names.dropLast
    (openAt d fileName false).mapError fun e => s!"open attachment file failed: {e}"

/-- `open_attachment_source`: the first root that holds the path. -/
def openAttachmentSource (path : String) : List AllowedSourceRoot → Access Nat
  | [] => throw "attachment is outside every allowed source root"
  | root :: roots =>
    match pathComponents path with
    | .rootDir :: rest =>
      match stripComponents (.rootDir :: rest) (pathComponents root.path) with
      | none => openAttachmentSource path roots
      | some relative => openBelow root.directory relative
    | relative => openBelow root.directory relative

/-- The opened file, once it is known to be regular and not too large. -/
def openRegularSource (path : String) (roots : List AllowedSourceRoot) : Access Nat := do
  let h ← openAttachmentSource path roots
  let found ← (metadata h).mapError fun e => s!"fstat attachment failed: {e}"
  if found.kind ≠ .file then throw "attachment is not a regular file"
  else if found.length > maxAttachmentSize then
    throw s!"attachment is too large ({found.length} bytes > {maxAttachmentSize})"
  else pure h

/-! ## Where the walk has been -/

/-- Each name was an entry of the directory reached before it, and no link, when
it was opened. -/
def WalkedTo : Nat → List String → Nat → FileHistory → Prop
  | d, [], h, _ => h = d
  | d, name :: rest, h, t => ∃ before m after next node, t = before ++ m :: after ∧
      m.before.entry d name = some next ∧ m.before.node next = some node ∧
      node.kind ≠ .symlink ∧ WalkedTo next rest h after

theorem WalkedTo.grows {d h names t}
    (hwalk : WalkedTo d names h t) (u : FileHistory) : WalkedTo d names h (t ++ u) := by
  induction names generalizing d t with
  | nil => exact hwalk
  | cons name rest ih =>
    obtain ⟨before, m, after, next, node, rfl, hentry, hnode, hkind, hrest⟩ := hwalk
    exact ⟨before, m, after ++ u, next, node, by simp, hentry, hnode, hkind, ih hrest⟩

/-- One more name at the end of a walk. -/
theorem WalkedTo.snoc {d h n names name t m node} (hwalk : WalkedTo d names h t)
    (hentry : m.before.entry h name = some n) (hnode : m.before.node n = some node)
    (hkind : node.kind ≠ .symlink) : WalkedTo d (names ++ [name]) n (t ++ [m]) := by
  induction names generalizing d t with
  | nil =>
    cases hwalk
    exact ⟨t, m, [], n, node, rfl, hentry, hnode, hkind, rfl⟩
  | cons first rest ih =>
    obtain ⟨before, m', after, next, node', rfl, hentry', hnode', hkind', hrest⟩ := hwalk
    exact ⟨before, m', after ++ [m], next, node', by simp, hentry', hnode', hkind', ih hrest⟩

theorem normalComponents_ok {components names}
    (h : normalComponents components = .ok names) : components = names.map .normal := by
  induction components generalizing names with
  | nil =>
    cases h
    rfl
  | cons c rest ih =>
    cases c with
    | normal name =>
      unfold normalComponents at h
      cases hrest : normalComponents rest with
      | error e =>
        rw [hrest] at h
        cases h
      | ok others =>
        rw [hrest] at h
        cases h
        rw [map_cons, ih hrest]
    | _ => cases h

theorem stripComponents_some {path root rest}
    (h : stripComponents path root = some rest) : path = root ++ rest := by
  induction root generalizing path with
  | nil =>
    unfold stripComponents at h
    exact Option.some.inj h
  | cons r root ih =>
    cases path with
    | nil => cases h
    | cons c path =>
      unfold stripComponents at h
      split at h
      · next heq => rw [heq, cons_append, ih h]
      · cases h

section Witnessed

variable {t : FileHistory}

/-- An opened name is an entry and no link. -/
theorem yields_openAt {d name directory} :
    Yields (witnessed treeStep) t (openAt d name directory) fun n t' => ∃ m node,
      t' = t ++ [m] ∧ m.before.entry d name = some n ∧ m.before.node n = some node ∧
        node.kind ≠ .symlink := by
  apply yields_fallible
  rintro r a s s' hr hstep
  subst hr
  obtain ⟨hentry, ⟨node, hnode, hkind, -⟩, -⟩ := hstep
  exact ⟨_, node, rfl, hentry, hnode, hkind⟩

theorem yields_walkParents (root : Nat) (done : List String) (names : List String) (d : Nat)
    (hwalk : WalkedTo root done d t) :
    Yields (witnessed treeStep) t (walkParents d names) fun h t' =>
      WalkedTo root (done ++ names) h t' := by
  induction names generalizing d done t with
  | nil => exact .pure (by rwa [append_nil])
  | cons name rest ih =>
    apply (yields_openAt).mapError.bind
    rintro next _ ⟨m, node, rfl, hentry, hnode, hkind⟩
    apply (yields_grows _ _).bind
    rintro found _ ⟨u, rfl⟩
    split
    · exact .throw
    · rw [append_cons done]
      exact ih _ _ ((hwalk.snoc hentry hnode hkind).grows u)

theorem yields_openBelow {root components} :
    Yields (witnessed treeStep) t (openBelow root components) fun h t' =>
      ∃ names, names ≠ [] ∧ components = names.map .normal ∧ WalkedTo root names h t' := by
  have hnormal : Yields (witnessed treeStep) t (.done (normalComponents components))
      fun names _ => components = names.map .normal := .done fun _ h => normalComponents_ok h
  apply hnormal.bind
  intro names t' hnames
  split
  · exact .throw
  next fileName hlast =>
  apply Yields.skip
  intro _ t₁
  apply (yields_walkParents root [] names.dropLast root rfl).bind
  intro d t₂ hwalk
  apply (yields_openAt).mapError.mono
  rintro h _ ⟨m, node, rfl, hentry, hnode, hkind⟩
  have hsplit : names.dropLast ++ [fileName] = names := dropLast_append_getLast? fileName hlast
  refine ⟨names, ?_, hnames, ?_⟩
  · intro hnil
    rw [hnil] at hlast
    cases hlast
  · rw [← hsplit]
    exact hwalk.snoc hentry hnode hkind

/-- The source of an attachment was reached from an allowed root. -/
theorem yields_openAttachmentSource {path roots} :
    Yields (witnessed treeStep) t (openAttachmentSource path roots) fun h t' =>
      ∃ root ∈ roots, ∃ base names, names ≠ [] ∧ (base = [] ∨ base = pathComponents root.path) ∧
        pathComponents path = base ++ names.map .normal ∧ WalkedTo root.directory names h t' := by
  induction roots with
  | nil => exact .throw
  | cons root roots ih =>
    have hbelow : ∀ base relative, (base = [] ∨ base = pathComponents root.path) →
        pathComponents path = base ++ relative →
        Yields (witnessed treeStep) t (openBelow root.directory relative) fun h t' =>
          ∃ r ∈ root :: roots, ∃ base names, names ≠ [] ∧
            (base = [] ∨ base = pathComponents r.path) ∧
            pathComponents path = base ++ names.map .normal ∧ WalkedTo r.directory names h t' := by
      intro base relative hbase hpath
      apply (yields_openBelow).mono
      rintro h t' ⟨names, hne, hnames, hwalk⟩
      exact ⟨root, mem_cons_self, base, names, hne, hbase, hnames ▸ hpath, hwalk⟩
    unfold openAttachmentSource
    split
    · next rest hpath =>
      split
      · apply ih.mono
        rintro h t' ⟨r, hr, hrest⟩
        exact ⟨r, mem_cons_of_mem root hr, hrest⟩
      · next relative hstrip =>
        exact hbelow _ relative (.inr rfl) (hpath.trans (stripComponents_some hstrip))
    · exact hbelow [] _ (.inl rfl) rfl

/-- The source is a regular file that was reached from an allowed root through
plain names, none of them a link. -/
def Allowed (path : String) (roots : List AllowedSourceRoot) (h : Nat) (t : FileHistory) : Prop :=
  ∃ u m, t = u ++ [m] ∧
    (∃ root ∈ roots, ∃ base names, names ≠ [] ∧
      (base = [] ∨ base = pathComponents root.path) ∧
      pathComponents path = base ++ names.map .normal ∧ WalkedTo root.directory names h u) ∧
    ∃ node, m.before.node h = some node ∧ node.kind = .file ∧
      node.content.length ≤ maxAttachmentSize

/-- And what is read from it is a regular file of a limited size. -/
theorem yields_openRegularSource (path : String) (roots : List AllowedSourceRoot) :
    Yields (witnessed treeStep) t (openRegularSource path roots) (Allowed path roots) := by
  apply (yields_openAttachmentSource).bind
  intro h u hwalk
  apply yields_metadata.mapError.bind
  rintro found _ ⟨m, rfl, node, hnode, rfl⟩
  split
  · exact .throw
  next hkind =>
  split
  · exact .throw
  · next hlength =>
    exact .pure ⟨u, m, rfl, hwalk, node, hnode, not_not.mp hkind, Nat.not_lt.mp hlength⟩

end Witnessed

end CrashMonitor.Files
