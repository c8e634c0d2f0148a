import CrashMonitor.Files.Private
import CrashMonitor.Lib.Confine
import CrashMonitor.Lib.Expand

/-!
# Exclusive publication

`publish_private_path` against another actor. The histories are those of
`witnessed`: between two calls the tree may be changed in any way at all, so
they include every renaming and replacing of the source and the destination.
Only for what is left after a failure does the actor have to stop, at the
check that failed.
-/

namespace CrashMonitor.Files

open FileTree Interleave List
variable {o : TreeOp} {r : o.Res} {s s' : Tree}

abbrev FileHistory := History treeSig Tree

/-! ## What may be called -/

/-- No entry is made or replaced but by an exclusive rename. -/
def Exclusive : TreeOp → Prop
  | .renameAt exclusive .. => exclusive = true
  | .createAt .. => False
  | _ => True

/-- Besides that, nothing is renamed but the entry at a place. -/
def Clearing (place : SecureParent) : TreeOp → Prop
  | .renameAt exclusive d name .. => exclusive = true ∧ d = place.parent ∧ name = place.name
  | .createAt .. => False
  | _ => True

/-- A part that keeps to some calls whatever it is answered. -/
abbrev KeepsTo (P : TreeOp → Prop) {α : Type} (x : Access α) : Prop :=
  Confines (S := treeSig) (fun _ _ => True) P x fun _ => True

section KeepsTo

variable {P : TreeOp → Prop} {α β : Type}

theorem KeepsTo.call {o} {f : o.Res → Except String α} (h : P o) :
    KeepsTo P (.mk (.call (S := treeSig) o fun r => .ret (f r)) : Access α) :=
  ⟨h, fun _ _ _ _ => trivial⟩

theorem KeepsTo.bind {x} {f : α → Access β} (hx : KeepsTo P x)
    (hf : ∀ a, KeepsTo P (f a)) : KeepsTo P (x >>= f) := Confines.bind hx fun a _ => hf a

theorem KeepsTo.done (r : Except String α) : KeepsTo P (.done r : Access α) :=
  Confines.done fun _ _ => trivial

theorem KeepsTo.outcome {x : Access α} (hx : KeepsTo P x) : KeepsTo P x.outcome :=
  (Confines.outcome hx).mono fun _ _ => trivial

theorem KeepsTo.reported {o} {f : o.Res → Except String α} {g} (h : P o) : KeepsTo P (.mapError g
      (.mk (.call (S := treeSig) o fun r => .ret (f r)) : Access α)) :=
  .mapError (KeepsTo.call h)

/-- All calls are allowed but those that make an entry. -/
def Harmless (P : TreeOp → Prop) : Prop := ∀ o, makesEntry o = false → P o

theorem harmless_exclusive : Harmless Exclusive := by
  intro o ho
  cases o with
  | renameAt | createAt => cases ho
  | _ => trivial

theorem harmless_clearing {place} : Harmless (Clearing place) := by
  intro o ho
  cases o with
  | renameAt | createAt => cases ho
  | _ => trivial

variable (hP : Harmless P) (euid : Nat)

include hP

section

variable (parent h : Nat) (path : String)

theorem keepsTo_validatePrivateHandle {kind}
    {correctMode : Bool} : KeepsTo P (validatePrivateHandle euid h path kind correctMode) := by
  refine .bind (.reported (hP _ rfl)) fun found => ?_
  split
  · exact .throw
  split
  · exact .throw
  refine .bind (.call (hP _ rfl)) fun acl => ?_
  split
  · exact .throw
  split
  · exact .pure trivial
  split
  · exact .throw
  refine .bind (.reported (hP _ rfl)) fun _ => ?_
  refine .bind (.reported (hP _ rfl)) fun corrected => ?_
  split
  · exact .throw
  · exact .pure trivial

theorem keepsTo_validateTrustedAncestor : KeepsTo P (validateTrustedAncestor euid h path) := by
  refine .bind (.reported (hP _ rfl)) fun found => ?_
  split
  · exact .throw
  refine .bind (.call (hP _ rfl)) fun acl => ?_
  split
  · exact .throw
  · exact .pure trivial

theorem keepsTo_pathWalk : KeepsTo P (pathWalk euid path) := by
  refine .bind (.done _) fun components => ?_
  split
  · exact .throw
  refine .bind ?_ fun components => ?_
  · unfold rewriteDarwinRootAlias
    split
    · split
      · refine .bind (.reported (hP _ rfl)) fun _ => ?_
        exact .bind (.reported (hP _ rfl)) fun _ => .pure trivial
      · exact .pure trivial
    · exact .pure trivial
  · refine .bind (.reported (hP _ rfl)) fun base => ?_
    exact .bind (keepsTo_validateTrustedAncestor hP euid _ _) fun _ => .pure trivial

theorem keepsTo_walkAncestors (resolved : String) (ancestors : List String) :
    KeepsTo P (walkAncestors euid parent resolved ancestors) := by
  induction ancestors generalizing parent resolved with
  | nil => exact .pure trivial
  | cons ancestor rest ih =>
    refine .bind (.reported (hP _ rfl)) fun child => ?_
    exact .bind (keepsTo_validateTrustedAncestor hP euid _ _) fun _ => ih _ _

theorem keepsTo_secureParent : KeepsTo P (secureParent euid path) := by
  refine .bind (keepsTo_pathWalk hP euid path) fun walk => ?_
  dsimp only
  split
  · exact .throw
  · refine .bind (keepsTo_walkAncestors hP euid _ _ _) fun found => ?_
    exact .bind (keepsTo_validatePrivateHandle hP euid _ _) fun _ => .pure trivial

theorem keepsTo_publishEntryMatchesHandle {name} {h : Nat}
    {path} : KeepsTo P (publishEntryMatchesHandle parent name h path) := by
  refine .bind (.reported (hP _ rfl)) fun named => ?_
  exact .bind (.reported (hP _ rfl)) fun _ => .pure trivial

end

theorem keepsTo_openValidatedPublishSource {place} :
    KeepsTo P (openValidatedPublishSource euid place) := by
  have hopen (kind : NodeKind) : KeepsTo P (openPublishSource place kind) := by
    cases kind with
    | directory | file => exact .bind (.reported (hP _ rfl)) fun _ => .pure trivial
    | symlink | other => exact .throw
  refine .bind (.reported (hP _ rfl)) fun initial => ?_
  refine .bind (hopen _) fun found => ?_
  refine .bind (keepsTo_validatePrivateHandle hP euid _ _) fun _ => ?_
  refine .bind (keepsTo_publishEntryMatchesHandle hP _) fun same => ?_
  split
  · exact .pure trivial
  · exact .throw

theorem keepsTo_quarantinePublishEntry {parent : Nat} {name : String}
    (hrename : ∀ d n, P (.renameAt true parent name d n)) :
    KeepsTo P (quarantinePublishEntry parent name) := by
  have hsync (what : String) : KeepsTo P (mentionSync parent what) := by
    refine .bind (.outcome (.call (hP _ rfl))) fun result => ?_
    split <;> exact .pure trivial
  have hremove : KeepsTo P (removeUntrustedPublishEntry parent name) := by
    refine .bind (.call (hP _ rfl)) fun found => ?_
    split
    · exact .reported (hP _ rfl)
    · exact .pure trivial
    · exact .throw
  refine .bind (.call (hP _ rfl)) fun nonce => ?_
  refine .bind (.outcome (.call (hrename _ _))) fun moved => ?_
  split
  · exact .bind (hsync _) fun _ => .pure trivial
  refine .bind (.outcome hremove) fun removed => ?_
  split
  · exact .bind (hsync _) fun _ => .pure trivial
  · exact .pure trivial

theorem keepsTo_settlePublication (source destination : String) (p : Publication)
    (hrename : ∀ d n, P (.renameAt true p.destination.parent p.destination.name d n))
    (verdict : Verdict) : KeepsTo P (settlePublication euid source destination p verdict) := by
  have hquarantine := keepsTo_quarantinePublishEntry hP hrename
  have hrestore : KeepsTo P (restoreOrQuarantinePublishEntry p.destination p.source) := by
    refine .bind (.outcome (.call (hrename _ _))) fun moved => ?_
    split
    · unfold syncPublishRollbackParents
      refine .bind (.outcome (.call (hP _ rfl))) fun current => ?_
      refine .bind (.outcome (.call (hP _ rfl))) fun other => ?_
      split <;> exact .pure trivial
    · exact .bind hquarantine fun _ => .pure trivial
  cases verdict with
  | published => exact .pure trivial
  | changed => exact .bind hquarantine fun _ => .throw
  | unverified e => exact .bind hquarantine fun _ => .throw
  | exposed e =>
    refine .bind ?_ fun _ => .throw
    refine .bind (.outcome (keepsTo_validatePrivateHandle hP euid _ _)) fun repaired => ?_
    split
    · refine .bind (.outcome (keepsTo_publishEntryMatchesHandle hP _)) fun same => ?_
      split
      · exact hrestore
      · exact hquarantine
    · exact .bind hquarantine fun _ => .pure trivial

end KeepsTo

variable (euid : Nat) (source destination : String)

theorem exclusive_publishPrivatePath :
    KeepsTo Exclusive (publishPrivatePath euid source destination) := by
  have hP := harmless_exclusive
  refine .bind ?_ fun p => ?_
  · unfold renameValidated
    refine .bind (keepsTo_secureParent hP ..) fun _ => ?_
    refine .bind (keepsTo_secureParent hP ..) fun _ => ?_
    refine .bind (keepsTo_validatePrivateHandle hP euid _ _) fun _ => ?_
    refine .bind (keepsTo_validatePrivateHandle hP euid _ _) fun _ => ?_
    refine .bind (keepsTo_openValidatedPublishSource hP euid) fun _ => ?_
    exact .bind (.reported rfl) fun _ => .pure trivial
  · refine .bind ?_ fun verdict => keepsTo_settlePublication hP euid _ _ _ (fun _ _ => rfl) verdict
    refine .bind (.outcome (keepsTo_publishEntryMatchesHandle hP _)) fun same => ?_
    split
    · refine .bind (.outcome (keepsTo_validatePrivateHandle hP euid _ _)) fun found => ?_
      split <;> exact .pure trivial
    · exact .pure trivial
    · exact .pure trivial

/-! ## No entry is replaced -/

/-- A call that leaves an entry as it is, or takes it away. -/
def NeverReplaces (m : Moment treeSig Tree) : Prop := ∀ d name n, m.before.entry d name = some n →
    m.after.entry d name = some n ∨ m.after.entry d name = none

theorem neverReplaces_of_exclusive (ho : Exclusive o) (hstep : treeStep o s r s') :
    NeverReplaces ⟨s, o, r, s'⟩ := by
  intro d name n hn
  rcases entry_of_step hstep with hsame | hmakes | ⟨d', name', _, -, rfl⟩
  · exact .inl (by rw [hsame]; exact hn)
  · cases o with
    | renameAt exclusive d₁ n₁ d₂ n₂ =>
      cases r with
      | error e => exact .inl (by rw [show s' = s from hstep]; exact hn)
      | ok u =>
        obtain ⟨hfree, x, -, rfl⟩ := hstep
        show (s.moveEntry d₁ n₁ d₂ n₂ x).entry d name = some n ∨ _
        rw [Tree.moveEntry_entry]
        by_cases htarget : d = d₂ ∧ name = n₂
        · rw [htarget.1, htarget.2, hfree ho] at hn
          cases hn
        by_cases hsource : d = d₁ ∧ name = n₁
        · exact .inr (by rw [if_neg htarget, if_pos hsource])
        · exact .inl (by rw [if_neg htarget, if_neg hsource]; exact hn)
    | createAt => exact ho.elim
    | _ => cases hmakes
  · show (s.setEntry d' name' none).entry d name = some n ∨ _
    rw [Tree.setEntry_entry]
    by_cases hplace : d = d' ∧ name = name'
    · exact .inr (by rw [if_pos hplace])
    · exact .inl (by rw [if_neg hplace]; exact hn)

/-! ## What is left at the destination -/

/-- The entry at a place was moved away, removed, or found to be missing. -/
inductive Cleared (place : SecureParent) : Moment treeSig Tree → Prop where
  | renamed (s s' : Tree) (d : Nat) (name : String) :
      Cleared place ⟨s, .renameAt true place.parent place.name d name, Except.ok (), s'⟩
  | unlinked (s s' : Tree) (directory : Bool) :
      Cleared place ⟨s, .unlinkAt place.parent place.name directory, Except.ok (), s'⟩
  | missing (s s' : Tree) :
      Cleared place ⟨s, .statAt place.parent place.name, Except.error .noEntry, s'⟩

/-- An empty place stays empty as long as nothing is renamed but what is there. -/
theorem empty_of_clearing {place} (ho : Clearing place o)
    (hstep : treeStep o s r s') (hempty : s.entry place.parent place.name = none) :
    s'.entry place.parent place.name = none := by
  rcases entry_of_step hstep with hsame | hmakes | ⟨d, name, _, -, rfl⟩
  · rw [hsame]
    exact hempty
  · cases o with
    | renameAt exclusive d name d' name' =>
      cases r with
      | error e =>
        rw [show s' = s from hstep]
        exact hempty
      | ok u =>
        obtain ⟨-, x, hx, -⟩ := hstep
        rw [ho.2.1, ho.2.2, hempty] at hx
        cases hx
    | createAt => exact ho.elim
    | _ => cases hmakes
  · rw [Tree.setEntry_entry]
    split
    · rfl
    · exact hempty

/-- A cleared place is empty. -/
theorem Cleared.empty {place} (h : Cleared place ⟨s, o, r, s'⟩)
    (hstep : treeStep o s r s') : s'.entry place.parent place.name = none := by
  cases h with
  | renamed _ _ d name =>
    obtain ⟨hfree, x, hx, rfl⟩ := hstep
    -- the target was free, so it is another place
    have hother : ¬ (place.parent = d ∧ place.name = name) := by
      rintro ⟨rfl, rfl⟩
      rw [hfree rfl] at hx
      cases hx
    rw [Tree.moveEntry_entry, if_neg hother, if_pos ⟨rfl, rfl⟩]
  | unlinked _ _ directory =>
    obtain ⟨x, node, -, -, -, rfl⟩ := hstep
    rw [Tree.setEntry_entry, if_pos ⟨rfl, rfl⟩]
  | missing =>
    obtain ⟨hnone, rfl⟩ := hstep
    exact hnone

/-- From a failed check on, with nobody else at work: once the entry has been
restored, set aside or removed, the destination is empty at the end. -/
theorem ensures_settlePublication {p verdict} (hfailed : verdict ≠ .published) {t s} :
    Ensures (recorded treeStep) (t, s) (settlePublication euid source destination p verdict).run
      fun result final => (∃ e, result = .error e) ∧
        ∃ u, final.1 = t ++ u ∧ ((∃ m ∈ u, Cleared p.destination m) →
          final.2.entry p.destination.parent p.destination.name = none) := by
  apply Ensures.and
  · have hthrows : Yields (recorded treeStep) (t, s)
        (settlePublication euid source destination p verdict) fun _ _ => False := by
      cases verdict with
      | published => exact absurd rfl hfailed
      | changed | unverified | exposed => exact .skip fun _ _ => .throw
    apply Ensures.mono hthrows
    intro result final h
    cases result with
    | ok u => exact (h u rfl).elim
    | error e => exact ⟨e, rfl⟩
  · have hkeeps := keepsTo_settlePublication harmless_clearing euid source
      destination p (fun _ _ => ⟨rfl, rfl, rfl⟩) verdict
    apply hkeeps.keeps
    · rintro o ⟨t', s'⟩ r ⟨t'', s''⟩ ho ⟨hstep, ht⟩ ⟨u, hu, hempty⟩
      refine ⟨u ++ [⟨s', o, r, s''⟩], ?_, ?_⟩
      · rw [ht, hu, append_assoc]
      rintro ⟨m, hm, hcleared⟩
      rcases mem_append.mp hm with hm | hm
      · exact empty_of_clearing ho hstep (hempty ⟨m, hm, hcleared⟩)
      · rw [mem_singleton.mp hm] at hcleared
        exact hcleared.empty hstep
    · refine ⟨[], (append_nil t).symm, ?_⟩
      rintro ⟨m, hm, -⟩
      cases hm

/-! ## What a success has seen -/

/-- The node was of this kind, owned by the user and with the private mode at
some moment, and without an extended access list at some moment. -/
def PrivateIn (n : Nat) (kind : PrivateNodeKind) (u : FileHistory) : Prop :=
  (∃ m ∈ u, ∃ node, m.before.node n = some node ∧ node.kind = kind.nodeKind ∧
    node.owner = euid ∧ permissionBits node.mode = kind.mode) ∧
  ∃ m ∈ u, ∃ node, m.before.node n = some node ∧ node.extendedAcl = false

theorem PrivateIn.mono {euid n kind u w}
    (h : PrivateIn euid n kind u) (hsub : u ⊆ w) : PrivateIn euid n kind w := by
  obtain ⟨⟨m, hm, hnode⟩, m', hm', hnode'⟩ := h
  exact ⟨⟨m, hsub hm, hnode⟩, m', hsub hm', hnode'⟩

/-- From `t` on, the destination was seen to hold the node of the publication,
and the node was then seen private. -/
def SeenPublished (p : Publication) (t t' : FileHistory) : Prop :=
  ∃ check rest, t' = t ++ check :: rest ∧
    check.op = .statAt p.destination.parent p.destination.name ∧
    check.before.entry p.destination.parent p.destination.name = some p.handle ∧
    PrivateIn euid p.handle p.kind rest

section Witnessed

variable {t : FileHistory} {euid : Nat} {α β : Type}

/-- A history only grows. -/
theorem ensures_grows (p : Prog treeSig α) (t : FileHistory) :
    Ensures (witnessed treeStep) t p fun _ t' => ∃ u, t' = t ++ u := by
  induction p generalizing t with
  | ret a => exact ⟨[], (append_nil t).symm⟩
  | call o k ih =>
    rintro r _ ⟨s, s', -, rfl⟩
    apply (ih r _).mono
    rintro a t' ⟨u, rfl⟩
    exact ⟨_, append_assoc ..⟩

theorem yields_grows (x : Access α) (t : FileHistory) :
    Yields (witnessed treeStep) t x fun _ t' => ∃ u, t' = t ++ u :=
  (ensures_grows x.run t).mono fun _ _ h _ _ => h

theorem yields_fallible {o f} {Q : α → FileHistory → Prop}
    (h : ∀ r a s s', f r = .ok a → treeStep o s r s' → Q a (t ++ [⟨s, o, r, s'⟩])) :
    Yields (witnessed treeStep) t (fallible o f) Q := by
  rintro r _ ⟨s, s', hstep, rfl⟩ a ha
  cases hr : f r with
  | error e =>
    rw [hr] at ha
    cases ha
  | ok b =>
    rw [hr] at ha
    cases ha
    exact h r a s s' hr hstep

theorem yields_metadata {h} : Yields (witnessed treeStep) t (metadata h) fun found t' =>
      ∃ m, t' = t ++ [m] ∧ ∃ node, m.before.node h = some node ∧ found = node.metadata := by
  apply yields_fallible
  rintro r a s s' hr hstep
  subst hr
  exact ⟨_, rfl, hstep.1⟩

/-- A handle that passes its check has been seen private. -/
theorem yields_validatePrivateHandle {h path} {kind : PrivateNodeKind} :
    Yields (witnessed treeStep) t (validatePrivateHandle euid h path kind false)
      fun _ t' => ∃ u, t' = t ++ u ∧ PrivateIn euid h kind u := by
  apply yields_metadata.mapError.bind
  rintro found _ ⟨m, rfl, node, hnode, rfl⟩
  split
  · exact .throw
  next hkind =>
  split
  · exact .throw
  next howner =>
  have hacl : Yields (witnessed treeStep) (t ++ [m]) (extendedAcl h) fun found t' =>
      ∃ m', t' = t ++ [m] ++ [m'] ∧
        ∃ node, m'.before.node h = some node ∧ found = node.extendedAcl := by
    apply yields_fallible
    rintro r a s s' hr hstep
    subst hr
    exact ⟨_, rfl, hstep.1⟩
  apply hacl.bind
  rintro acl _ ⟨m', rfl, node', hnode', rfl⟩
  split
  · exact .throw
  next hnone =>
  split
  · next hmode =>
    rw [not_not] at hkind howner
    refine .pure ⟨[m, m'], by simp, ⟨m, by simp, node, hnode, hkind, howner, hmode⟩, m',
      by simp, node', hnode', by simpa using hnone⟩
  · exact .throw

/-- A name that matches a handle leads to it at that moment. -/
theorem yields_publishEntryMatchesHandle (parent : Nat) (name : String) (h : Nat) (path : String) :
    Yields (witnessed treeStep) t (publishEntryMatchesHandle parent name h path)
      fun same t' => same = true → ∃ m u, t' = t ++ m :: u ∧
        m.op = .statAt parent name ∧ m.before.entry parent name = some h := by
  have hstat : Yields (witnessed treeStep) t (statAt parent name) fun found t' =>
      ∃ m, t' = t ++ [m] ∧ m.op = .statAt parent name ∧
        m.before.entry parent name = some found.1 := by
    apply yields_fallible
    rintro r a s s' hr hstep
    subst hr
    exact ⟨_, rfl, rfl, hstep.1⟩
  apply hstat.mapError.bind
  rintro found _ ⟨m, rfl, hop, hentry⟩
  apply (yields_grows _ _).bind
  rintro _ _ ⟨u, rfl⟩
  refine .pure fun hsame => ⟨m, u, by simp, hop, ?_⟩
  rw [hentry, of_decide_eq_true hsame]

/-- The rename comes after its source has been seen private. -/
theorem yields_renameValidated {source destination} :
    Yields (witnessed treeStep) [] (renameValidated euid source destination) fun p t' =>
      ∃ u s s', t' = u ++ [⟨s, .renameAt true p.source.parent p.source.name
          p.destination.parent p.destination.name, .ok (), s'⟩] ∧
        PrivateIn euid p.handle p.kind u := by
  apply (yields_grows _ _).bind
  rintro sourcePlace t₁ -
  apply (yields_grows _ _).bind
  rintro destinationPlace t₂ -
  apply (yields_grows _ _).bind
  rintro _ t₃ -
  apply (yields_grows _ _).bind
  rintro _ t₄ -
  have hopen : Yields (witnessed treeStep) t₄ (openValidatedPublishSource euid sourcePlace)
      fun found t' => PrivateIn euid found.1 found.2 t' := by
    apply (yields_grows _ _).bind
    rintro initial t₅ -
    apply (yields_grows _ _).bind
    rintro found t₆ -
    apply (yields_validatePrivateHandle).bind
    rintro _ _ ⟨u, rfl, hprivate⟩
    apply (yields_grows _ _).bind
    rintro same _ ⟨w, rfl⟩
    split
    · exact .pure (hprivate.mono fun m hm => by simp [hm])
    · exact .throw
  apply hopen.bind
  intro found t₅ hprivate
  have hrename : Yields (witnessed treeStep) t₅ (renameAt true sourcePlace.parent
      sourcePlace.name destinationPlace.parent destinationPlace.name) fun _ t' =>
      ∃ s s', t' = t₅ ++ [⟨s, .renameAt true sourcePlace.parent sourcePlace.name
        destinationPlace.parent destinationPlace.name, .ok (), s'⟩] := by
    apply yields_fallible
    rintro r a s s' hr hstep
    subst hr
    exact ⟨s, s', rfl⟩
  apply hrename.mapError.bind
  rintro _ _ ⟨s, s', rfl⟩
  exact .pure ⟨t₅, s, s', rfl, hprivate⟩

/-- The checks always come to a verdict. -/
theorem achieves_checkPublication {destination p t} :
    Achieves (witnessed treeStep) t (checkPublication euid destination p)
      fun verdict t' => verdict = .published → SeenPublished euid p t t' := by
  have hmatches := yields_publishEntryMatchesHandle (t := t) p.destination.parent
    p.destination.name p.handle destination
  apply (Achieves.outcome hmatches).bind
  intro same t₁ hsame
  split
  · obtain ⟨check, rest, rfl, hop, hentry⟩ := hsame true rfl rfl
    have hprivate : Yields (witnessed treeStep) (t ++ check :: rest)
        (validatePrivateHandle euid p.handle destination p.kind false) fun _ t' =>
        ∃ u, t' = t ++ check :: rest ++ u ∧ PrivateIn euid p.handle p.kind u :=
      yields_validatePrivateHandle
    apply (Achieves.outcome hprivate).bind
    intro result t₂ hresult
    split
    · obtain ⟨u, rfl, hu⟩ := hresult () rfl
      refine .pure fun _ => ⟨check, rest ++ u, by simp, hop, hentry, hu.mono fun m hm => ?_⟩
      exact mem_append_right rest hm
    · exact .pure (by simp)
  · exact .pure (by simp)
  · exact .pure (by simp)

/-- Only a good verdict lets the publication return. -/
theorem yields_checked {source destination p t} :
    Yields (witnessed treeStep) t (checkPublication euid destination p >>=
      settlePublication euid source destination p) fun _ t' => SeenPublished euid p t t' := by
  apply (achieves_checkPublication).seq
  intro verdict t' hseen
  cases verdict with
  | published => exact Yields.pure (hseen rfl)
  | changed | unverified | exposed => exact Yields.skip fun _ _ => .throw

end Witnessed

/-! ## Publication -/

theorem neverReplaces_publishPrivatePath :
    Ensures (witnessed treeStep) [] (publishPrivatePath euid source destination).run
      fun _ t => ∀ m ∈ t, NeverReplaces m := by
  apply (exclusive_publishPrivatePath ..).keeps
  · rintro o t r _ ho ⟨s, s', hstep, rfl⟩ ht
    exact forall_mem_append.mpr ⟨ht, forall_mem_singleton.mpr (neverReplaces_of_exclusive ho hstep)⟩
  · intro m hm
    cases hm

/-- Whatever happens between its calls, publication replaces no entry. A success
has renamed the source after seeing it private, and then has seen the same node
at the destination and seen it private again. After a failed check, with nothing
else happening, it ends in an error with the destination empty, if the entry
could be restored, set aside or removed. -/
theorem publishPrivatePath_exclusive (euid : Nat) (source destination : String) : (∀ result t,
      Run (witnessed treeStep) (publishPrivatePath euid source destination).run [] result t →
      (∀ m ∈ t, NeverReplaces m) ∧ (result = .ok () → ∃ p before s s' t₁,
        Run (witnessed treeStep) (renameValidated euid source destination).run [] (.ok p) t₁ ∧
        t₁ = before ++ [⟨s, .renameAt true p.source.parent p.source.name
          p.destination.parent p.destination.name, Except.ok (), s'⟩] ∧
        PrivateIn euid p.handle p.kind before ∧ SeenPublished euid p t₁ t)) ∧ ∀ p t₁ found t₂,
      Run (witnessed treeStep) (renameValidated euid source destination).run [] (.ok p) t₁ →
      Run (witnessed treeStep) (checkPublication euid destination p).run t₁ found t₂ →
      ∃ verdict, found = .ok verdict ∧ (verdict ≠ .published → ∀ s result final,
          Run (recorded treeStep)
            (settlePublication euid source destination p verdict).run (t₂, s) result final →
          (∃ e, result = .error e) ∧ ∃ u, final.1 = t₂ ++ u ∧ ((∃ m ∈ u, Cleared p.destination m) →
              final.2.entry p.destination.parent p.destination.name = none)) := by
  constructor
  · intro result t hrun
    refine ⟨(neverReplaces_publishPrivatePath euid source destination).run hrun, ?_⟩
    rintro rfl
    unfold publishPrivatePath at hrun
    obtain ⟨renamed, t₁, hrename, hrest⟩ := Run.of_bind hrun
    cases renamed with
    | error e => cases hrest
    | ok p =>
      obtain ⟨before, s, s', ht₁, hbefore⟩ := (yields_renameValidated).run hrename
      exact ⟨p, before, s, s', t₁, hrename, ht₁, hbefore, (yields_checked).run hrest⟩
  · intro p t₁ found t₂ hrename hcheck
    obtain ⟨verdict, rfl, -⟩ := (achieves_checkPublication).run hcheck
    refine ⟨verdict, rfl, fun hfailed s result final hrun => ?_⟩
    exact (ensures_settlePublication euid source destination hfailed).run hrun

namespace PrivateReport

def staged : String := "/staging/report"
def report : String := "/reports/report"

def directory (owner mode : Nat) : Node := ⟨.directory, owner, mode, false, false, []⟩
def file (mode : Nat) : Node := ⟨.file, 501, mode, false, false, [123, 125]⟩

/-- A private file in the first of two private directories. -/
def tree : Tree where
  entry d name := if d = 0 ∧ name = "staging" then some 1
    else if d = 0 ∧ name = "reports" then some 2
    else if d = 1 ∧ name = "report" then some 3
    else none
  node
    | 0 => some (directory 0 0o755)
    | 1 | 2 => some (directory 501 privateDirectoryMode)
    | 3 => some (file privateFileMode)
    | _ => none

/-- How a part ends on a system that serves its calls. -/
def final {α : Type} (x : Access α) (s : FileHistory × Tree) :
    Except String α × FileHistory × Tree := x.run.exec (recording serve) s

theorem run {α : Type} (x : Access α) (s : FileHistory × Tree) {result}
    (h : (final x s).1 = result) : Run (recorded treeStep) x.run s result (final x s).2 :=
  h ▸ .of_recording serve_step _ s

def publication : Publication := ⟨⟨1, "report", "/staging"⟩, ⟨2, "report", "/reports"⟩, 3, .file⟩

def renamed : FileHistory × Tree := (final (renameValidated 501 staged report) ([], tree)).2

/-- After the rename somebody makes the file readable for all. -/
def exposed : FileHistory × Tree := (renamed.1, renamed.2.setNode 3 (file 0o644))

def checked : Except String Verdict × FileHistory × Tree :=
  final (checkPublication 501 report publication) exposed

/-- The permissions are found changed. -/
def verdict : Verdict := checked.1.toOption.getD .published

def settled : Except String Unit × FileHistory × Tree :=
  final (settlePublication 501 staged report publication verdict) checked.2

end PrivateReport

open PrivateReport in
/-- The file is published; if it is made readable for all in between, it is made
private again and put back. -/
theorem published_or_put_back :
    (∃ p t t', Run (witnessed treeStep) (publishPrivatePath 501 staged report).run [] (.ok ()) t' ∧
      SeenPublished 501 p t t') ∧
    checked.1 = .ok verdict ∧ (∃ e, settled.1 = .error e) ∧
      settled.2.2.entry 2 "report" = none ∧ settled.2.2.entry 1 "report" = some 3 ∧
      settled.2.2.node 3 = some (file privateFileMode) := by
  obtain ⟨hruns, hfailures⟩ := publishPrivatePath_exclusive 501 staged report
  constructor
  · have hrun := (run (publishPrivatePath 501 staged report) ([], tree) rfl).witnessed
    obtain ⟨p, -, -, -, t, -, -, -, hseen⟩ := (hruns _ _ hrun).2 rfl
    exact ⟨p, t, _, hrun, hseen⟩
  · have hrenamed : (final (renameValidated 501 staged report) ([], tree)).1 =
        .ok publication := rfl
    have hchecked : checked.1 = .ok verdict := rfl
    obtain ⟨_, hverdict, hfailed⟩ := hfailures publication renamed.1 _ checked.2.1
      (run _ _ hrenamed).witnessed (run _ exposed hchecked).witnessed
    cases hverdict
    have hexposed : verdict ≠ .published := Verdict.noConfusion
    obtain ⟨he, u, hu, hempty⟩ := hfailed hexposed checked.2.2 settled.1 settled.2 (run _ _ rfl)
    -- the seventh of the settling calls moves the file back
    have hmoved : ∃ m ∈ settled.2.1.drop checked.2.1.length, Cleared publication.destination m :=
      ⟨_, mem_of_getElem? (i := 6) rfl, .renamed ..⟩
    rw [hu, drop_left] at hmoved
    exact ⟨hchecked, he, hempty hmoved, rfl, rfl⟩

end CrashMonitor.Files
