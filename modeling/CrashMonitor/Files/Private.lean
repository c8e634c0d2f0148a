import CrashMonitor.Lib.FileTree

/-!
# Private paths

`utils/paths.rs` over single system calls: the walk to the parent of a path
without following a link, the checks of a private handle, exclusive creation,
and exclusive publication with the containment that follows a failed check.
The report store works with coarser calls; here every one can be raced.
-/

namespace CrashMonitor.Files

open FileTree Interleave

/-! ## Paths -/

/-- `std::path::Component`. -/
inductive PathComponent where
  | rootDir
  | curDir
  | parentDir
  | normal (name : String)
  deriving DecidableEq, Repr

/-- A piece between slashes, anywhere but at the start of a relative path. -/
def interior : List Char → Option PathComponent
  | [] => none
  | ['.'] => none
  | ['.', '.'] => some .parentDir
  | piece => some (.normal (String.ofList piece))

/-- `Path::components`. -/
def pathComponents (path : String) : List PathComponent :=
  match path.toList with
  | '/' :: rest => .rootDir :: (rest.splitOn '/').filterMap interior
  | text =>
    match text.splitOn '/' with
    | ['.'] :: rest => .curDir :: rest.filterMap interior
    | pieces => pieces.filterMap interior

/-- `PathBuf::push` of a single component. -/
def pushPath (base name : String) : String :=
  if base.toList.getLast? = some '/' then base ++ name else base ++ "/" ++ name

/-! ## Modes -/

def privateDirectoryMode : Nat := 0o700
def privateFileMode : Nat := 0o600

/-- The permission bits of a mode. -/
def permissionBits (mode : Nat) : Nat := mode % 0o10000

/-- `{mode:04o}`. -/
def octal (mode : Nat) : String :=
  let digits := Nat.toDigits 8 mode
  String.ofList (List.replicate (4 - digits.length) '0' ++ digits)

/-- `PrivateNodeKind`. -/
inductive PrivateNodeKind where
  | directory
  | file
  deriving DecidableEq, Repr

def PrivateNodeKind.mode : PrivateNodeKind → Nat
  | .directory => privateDirectoryMode
  | .file => privateFileMode

def PrivateNodeKind.description : PrivateNodeKind → String
  | .directory => "directory"
  | .file => "file"

def PrivateNodeKind.nodeKind : PrivateNodeKind → NodeKind
  | .directory => .directory
  | .file => .file

section

variable (euid : Nat)

/-! ## Handles -/

/-- `validate_private_handle`. -/
def validatePrivateHandle (h : Nat) (path : String) (kind : PrivateNodeKind)
    (correctMode : Bool) : Access Unit := do
  let found ← (metadata h).mapError fun e =>
    s!"cannot inspect private {kind.description} '{path}': {e}"
  if found.kind ≠ kind.nodeKind then
    throw s!"private path is not a regular {kind.description}: '{path}'"
  else if found.owner ≠ euid then
    throw (s!"private {kind.description} '{path}' is owned by uid {found.owner}, " ++
      s!"expected effective uid {euid}")
  else if ← extendedAcl h then
    throw s!"private {kind.description} '{path}' has an extended ACL"
  else if permissionBits found.mode = kind.mode then pure ()
  else if !correctMode then
    throw (s!"private {kind.description} '{path}' has mode " ++
      s!"{octal (permissionBits found.mode)}, expected {octal kind.mode}")
  else
    (setMode h kind.mode).mapError fun e =>
      s!"cannot correct private {kind.description} mode for '{path}': {e}"
    let corrected ← (metadata h).mapError fun e =>
      s!"cannot re-inspect private {kind.description} '{path}': {e}"
    if permissionBits corrected.mode ≠ kind.mode then
      throw (s!"private {kind.description} '{path}' remains mode " ++
        s!"{octal (permissionBits corrected.mode)}, expected {octal kind.mode}")
    else pure ()

/-- `trusted_ancestor_metadata`. -/
def trustedAncestorMetadata (found : Metadata) : Bool :=
  let mode := permissionBits found.mode
  found.kind = .directory && (found.owner = euid || found.owner = 0) && (mode &&& 0o500) = 0o500 &&
    ((mode &&& 0o022) = 0 || (found.owner = 0 && (mode &&& 0o1000) ≠ 0))

/-- `validate_trusted_ancestor`. -/
def validateTrustedAncestor (h : Nat) (path : String) : Access Unit := do
  let found ← (metadata h).mapError fun e =>
    s!"cannot inspect trusted private path ancestor '{path}': {e}"
  if !trustedAncestorMetadata euid found then
    throw ("private path ancestor is not owned and protected against untrusted " ++
      s!"writes: '{path}'")
  else if ← allowingAcl h then
    throw s!"private path ancestor '{path}' has an extended ACL that grants access"
  else pure ()

/-! ## Walking -/

/-- The normal components of a private path; the root itself is opened apart. -/
def privateComponents (path : String) : List PathComponent → Except String (List String)
  | [] => .ok []
  | .rootDir :: rest | .curDir :: rest => privateComponents path rest
  | .parentDir :: _ => .error s!"private path must not contain '..': '{path}'"
  | .normal name :: rest => do
    let names ← privateComponents path rest
    pure (name :: names)

/-- `rewrite_darwin_root_alias` of an absolute path: the two system aliases are
resolved by name. -/
def rewriteDarwinRootAlias (absolute : Bool) (components : List String) : Access (List String) := do
  match components with
  | first :: _ =>
    if absolute ∧ (first = "var" ∨ first = "tmp") then
      (probe "inspect a root alias").mapError fun e =>
        s!"cannot inspect Darwin root alias '/{first}': {e}"
      (probe "resolve a root alias").mapError fun e =>
        s!"cannot resolve Darwin root alias '/{first}': {e}"
      pure ("private" :: components)
    else pure components
  | [] => pure components

/-- `path_walk`: the directory to start from, the components, and its path. -/
def pathWalk (path : String) : Access (Nat × List String × String) := do
  let components ← Attempt.done (privateComponents path (pathComponents path))
  if components = [] then
    throw s!"private path must name a child directory: '{path}'"
  else
    let absolute := decide ((pathComponents path).head? = some .rootDir)
    let components ← rewriteDarwinRootAlias absolute components
    let (base, basePath) ← (openBase absolute).mapError fun e =>
      s!"cannot safely open private directory: {e}"
    validateTrustedAncestor euid base basePath
    pure (base, components, basePath)

/-- The ancestors of a path, each opened in the one before and checked. What
`open_directory_at_with_retry` repeats while it is denied is one call here. -/
def walkAncestors : Nat → String → List String → Access (Nat × String)
  | parent, resolved, [] => pure (parent, resolved)
  | parent, resolved, ancestor :: rest => do
    let child ← (openAt parent ancestor true).mapError fun e =>
      s!"cannot safely open private path ancestor '{pushPath resolved ancestor}': {e}"
    validateTrustedAncestor euid child (pushPath resolved ancestor)
    walkAncestors child (pushPath resolved ancestor) rest

/-- A path whose parent is open. -/
structure SecureParent where
  parent : Nat
  name : String
  parentPath : String

def SecureParent.path (p : SecureParent) : String := pushPath p.parentPath p.name

/-- `secure_parent`. -/
def secureParent (path : String) : Access SecureParent := do
  let (base, components, basePath) ← pathWalk euid path
  match components.getLast? with
  | none => throw s!"private path has no filename: '{path}'"
  | some name =>
    let (parent, parentPath) ← walkAncestors euid base basePath components.dropLast
    validatePrivateHandle euid parent parentPath .directory false
    pure ⟨parent, name, parentPath⟩

/-! ## Publication -/

section

variable (parent : Nat) (name : String) (place : SecureParent)

/-- `publish_entry_matches_handle`. -/
def publishEntryMatchesHandle (h : Nat) (path : String) :
    Access Bool := do
  let named ← (statAt parent name).mapError fun e => s!"cannot inspect private publish entry: {e}"
  let _ ← (metadata h).mapError fun e =>
    s!"cannot inspect opened private publish source '{path}': {e}"
  pure (named.1 = h)

/-- The source opened as the kind of node it was seen to be. -/
def openPublishSource : NodeKind → Access (Nat × PrivateNodeKind)
  | .directory => do
    let h ← (openAt place.parent place.name true).mapError fun e =>
      s!"cannot safely open private publish source: {e}"
    pure (h, .directory)
  | .file => do
    let h ← (openAt place.parent place.name false).mapError fun e =>
      s!"cannot safely open private publish source: {e}"
    pure (h, .file)
  | _ => throw ("private publish source is not a regular file or directory: " ++ s!"'{place.path}'")

/-- `open_validated_publish_source`. -/
def openValidatedPublishSource : Access (Nat × PrivateNodeKind) := do
  let initial ← (statAt place.parent place.name).mapError fun e =>
    s!"cannot inspect private publish source: {e}"
  let found ← openPublishSource place initial.2.kind
  validatePrivateHandle euid found.1 place.path found.2 false
  if ← publishEntryMatchesHandle place.parent place.name found.1 place.path then
    pure found
  else throw s!"private publish source changed during validation: '{place.path}'"

/-- `private_publish_pending_name`. -/
def privatePublishPendingName (nonce : String) : String := ".publish-" ++ nonce ++ ".pending"

/-- `remove_untrusted_publish_entry`. -/
def removeUntrustedPublishEntry : Access Unit := do
  match ← tryStatAt parent name with
  | .ok found =>
    (unlinkAt parent name (found.2.kind = .directory)).mapError fun e =>
      s!"cannot unlink raced publish entry: {e}"
  | .error .noEntry => pure ()
  | .error e => throw s!"cannot inspect raced publish entry: {e.text}"

/-- A failed sync is only mentioned. -/
def mentionSync (h : Nat) (what : String) : Access String := do
  match ← (syncAll h).outcome with
  | .ok _ => pure ""
  | .error e => pure s!"; {what} directory sync failed ({e})"

/-- `quarantine_publish_entry`. -/
def quarantinePublishEntry : Access String := do
  let nonce ← uuid
  let quarantine := privatePublishPendingName nonce
  match ← (renameAt true parent name parent quarantine).outcome with
  | .ok _ =>
    let sync ← mentionSync parent "quarantine"
    pure s!"; entry was contained as '{quarantine}'{sync}"
  | .error quarantineError =>
    match ← (removeUntrustedPublishEntry parent name).outcome with
    | .ok _ =>
      let sync ← mentionSync parent "containment"
      pure (s!"; quarantine rename failed ({quarantineError}); " ++ s!"entry was unlinked{sync}")
    | .error removeError =>
      pure (s!"; quarantine rename failed ({quarantineError}) and " ++
        s!"containment unlink failed ({removeError})")

end

/-- `sync_publish_rollback_parents`. -/
def syncPublishRollbackParents (currentParent sourceParent : Nat) : Access String := do
  let current ← (syncAll currentParent).outcome
  let source ← (syncAll sourceParent).outcome
  match current, source with
  | .ok _, .ok _ => pure ""
  | .error e, .ok _ => pure s!"; source restored but published-parent sync failed ({e})"
  | .ok _, .error e => pure s!"; source restored but source-parent sync failed ({e})"
  | .error e, .error other =>
    pure (s!"; source restored but published-parent sync failed ({e}); " ++
      s!"source-parent sync failed ({other})")

/-- `restore_validated_or_quarantine_publish_entry`. -/
def restoreOrQuarantinePublishEntry (destination source : SecureParent) : Access String := do
  match ← (renameAt true destination.parent destination.name source.parent source.name).outcome with
  | .ok _ => syncPublishRollbackParents destination.parent source.parent
  | .error e =>
    let containment ← quarantinePublishEntry destination.parent destination.name
    pure s!"; source restoration failed ({e}){containment}"

/-- What is known once the rename has succeeded. -/
structure Publication where
  source : SecureParent
  destination : SecureParent
  handle : Nat
  kind : PrivateNodeKind

variable (source destination : String)

/-- `publish_private_path` up to the rename. -/
def renameValidated : Access Publication := do
  let sourcePlace ← secureParent euid source
  let destinationPlace ← secureParent euid destination
  validatePrivateHandle euid sourcePlace.parent sourcePlace.parentPath .directory true
  validatePrivateHandle euid destinationPlace.parent destinationPlace.parentPath .directory true
  let (h, kind) ← openValidatedPublishSource euid sourcePlace
  (renameAt true sourcePlace.parent sourcePlace.name destinationPlace.parent
    destinationPlace.name).mapError fun e =>
      s!"cannot exclusively publish private path '{source}' as '{destination}': {e}"
  pure ⟨sourcePlace, destinationPlace, h, kind⟩

/-- What the checks after the rename found. -/
inductive Verdict where
  | published
  | changed
  | unverified (error : String)
  | exposed (error : String)

/-- The checks after the rename: the name, then the permissions. -/
def checkPublication (p : Publication) : Access Verdict := do
  match ← (publishEntryMatchesHandle p.destination.parent p.destination.name p.handle
      destination).outcome with
  | .ok true =>
    match ← (validatePrivateHandle euid p.handle destination p.kind false).outcome with
    | .ok _ => pure .published
    | .error e => pure (.exposed e)
  | .ok false => pure .changed
  | .error e => pure (.unverified e)

/-- The containment of an entry whose permissions had changed. -/
def containExposed (p : Publication) : Access String := do
  match ← (validatePrivateHandle euid p.handle destination p.kind true).outcome with
  | .ok _ =>
    match ← (publishEntryMatchesHandle p.destination.parent p.destination.name p.handle
        destination).outcome with
    | .ok true => restoreOrQuarantinePublishEntry p.destination p.source
    | _ => quarantinePublishEntry p.destination.parent p.destination.name
  | .error repairError =>
    let containment ← quarantinePublishEntry p.destination.parent p.destination.name
    pure s!"; private permission repair failed ({repairError}){containment}"

/-- What follows each verdict. -/
def settlePublication (p : Publication) : Verdict → Access Unit
  | .published => pure ()
  | .changed => do
    let containment ← quarantinePublishEntry p.destination.parent p.destination.name
    throw s!"private publish source changed after validation: '{source}'{containment}"
  | .unverified e => do
    let containment ← quarantinePublishEntry p.destination.parent p.destination.name
    throw (s!"cannot verify private publish destination '{destination}': " ++ s!"{e}{containment}")
  | .exposed e => do
    let containment ← containExposed euid destination p
    throw ("private publish source permissions changed during publication: " ++
      s!"{e}{containment}")

/-- `publish_private_path`. -/
def publishPrivatePath : Access Unit := do
  let p ← renameValidated euid source destination
  let verdict ← checkPublication euid destination p
  settlePublication euid source destination p verdict

end

end CrashMonitor.Files
