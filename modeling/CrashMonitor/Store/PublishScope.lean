import CrashMonitor.Lib.Confine
import CrashMonitor.Store.Paths

/-!
# What a publication touches

The calls with which a directory is published, whatever they answer. A scope
that allows them confines `publishPrivateDirectory`; the calls with which a
publication is taken back are needed only where its checks may fail.
-/

namespace CrashMonitor.Store

open Interleave Confines

section

variable {A : (o : storeSig.Op) → storeSig.Res o → Prop} {P : storeSig.Op → Prop}
  {caller : Caller} {sourceRoot root : Path} {source name : String} {contains : Prop}

/-- A scope in which a directory can be published. -/
structure AllowsPublish (A : (o : storeSig.Op) → storeSig.Res o → Prop) (P : storeSig.Op → Prop)
    (caller : Caller) (sourceRoot : Path) (source : String) (root : Path) (name : String)
    (contains : Prop) : Prop where
  probe : ∀ what, P (caller, .probe what)
  uuid : P (caller, .uuid)
  openSource : P (caller, .openDirectory sourceRoot source)
  matchesSource : ∀ d, P (caller, .matchesHandle sourceRoot source d)
  matchesEntry : ∀ d, P (caller, .matchesHandle root name d)
  verifyEntry : ∀ d, P (caller, .verifyEntry root name d)
  verifyPrivate : P (caller, .verifyPrivate .directory)
  publish : P (caller, .renameDirectory sourceRoot source root name)
  restore : contains → P (caller, .renameDirectory root name sourceRoot source)
  quarantine : contains → ∀ nonce,
    P (caller, .renameDirectory root name root (quarantineName nonce))
  remove : contains → P (caller, .removeDirectory root name)
  /-- Where nothing may be taken back, the checks succeed. -/
  same : ¬ contains → ∀ d r, A (caller, .verifyEntry root name d) r → r = .ok true
  isPrivate : ¬ contains → ∀ r, A (caller, .verifyPrivate .directory) r → r = .ok ()

namespace AllowsPublish

variable (h : AllowsPublish A P caller sourceRoot source root name contains)
include h

theorem probes {what} : Confines A P (Store.probe caller what).outcome fun _ => True :=
  attempted (call (h.probe what))

section Containment

variable (hcontains : contains) {d : Nat}
include hcontains

theorem quarantines : Confines A P (quarantinePublishEntry caller
      (directoryEntry caller d sourceRoot source root name)) fun _ => True := by
  refine skip (call h.uuid) fun nonce => ?_
  refine skip (attempted (call (h.quarantine hcontains nonce))) fun moved => ?_
  split
  · exact skip h.probes fun _ => .pure trivial
  refine skip (attempted (call (h.remove hcontains))) fun removed => ?_
  split
  · exact skip h.probes fun _ => .pure trivial
  · exact .pure trivial

theorem restores : Confines A P (restoreValidatedOrQuarantinePublishEntry caller
      (directoryEntry caller d sourceRoot source root name)) fun _ => True := by
  refine skip (attempted (call (h.restore hcontains))) fun moved => ?_
  split
  · exact skip h.probes fun _ => skip h.probes fun _ => .pure trivial
  · exact skip (h.quarantines hcontains) fun _ => .pure trivial

theorem takesBack : Confines A P (containPublishEntry caller
      (directoryEntry caller d sourceRoot source root name)) fun _ => True := by
  refine skip h.probes fun repaired => ?_
  split
  · exact skip (h.quarantines hcontains) fun _ => .pure trivial
  refine skip (attempted (call (h.matchesEntry d))) fun same => ?_
  split
  · exact h.restores hcontains
  · exact h.quarantines hcontains

end Containment

/-- What is done about a published directory that fails its checks. -/
theorem settles {d source' destination} : Confines A P (settlePublishEntry caller
      (directoryEntry caller d sourceRoot source root name) source' destination)
      fun _ => True := by
  have hentry : Confines A P (Store.verifyEntry caller root name d).outcome
      fun same => ¬ contains → same = .ok true := ⟨h.verifyEntry d, fun r hr a ha hnot => by
      cases ha
      exact h.same hnot d r hr⟩
  have hprivate : Confines A P (Store.verifyPrivate caller .directory).outcome
      fun result => ¬ contains → result = .ok () := ⟨h.verifyPrivate, fun r hr a ha hnot => by
      cases ha
      exact h.isPrivate hnot r hr⟩
  refine bind hentry fun same hsame => ?_
  by_cases hcontains : contains
  · split
    · refine bind hprivate fun result _ => ?_
      split
      · exact .pure trivial
      · exact skip (h.takesBack hcontains) fun _ => .throw
    · exact skip (h.quarantines hcontains) fun _ => .throw
    · exact skip (h.quarantines hcontains) fun _ => .throw
  · rw [hsame hcontains]
    refine bind hprivate fun result hresult => ?_
    rw [hresult hcontains]
    exact .pure trivial

theorem publishes :
    Confines A P (publishPrivateDirectory caller sourceRoot source root name) fun _ => True := by
  refine skip (call (h.probe _)) fun _ => ?_
  refine skip (call (h.probe _)) fun _ => ?_
  refine skip (call h.openSource) fun d => ?_
  refine skip (call (h.probe _)) fun _ => ?_
  refine skip (call (h.matchesSource d)) fun same => ?_
  split
  · exact .throw
  · exact skip (mapError (call h.publish)) fun _ => h.settles

end AllowsPublish

/-! ## Locks -/

theorem confines_tryLockReportDirectory (hprobe : ∀ what, P (caller, .probe what))
    (hopen : P (caller, .openDirectory root name)) (hlock : ∀ d, P (caller, .lockDirectory d)) :
    Confines A P (tryLockReportDirectory caller root name) fun _ => True := by
  refine skip (call hopen) fun d => ?_
  refine skip (mapError (call (hprobe _))) fun _ => ?_
  refine skip (mapError (call (hlock d))) fun owner => ?_
  split
  · exact .pure trivial
  · exact .pure trivial

theorem confines_holding {α : Type} {t d} {body : Call α} {Q}
    (hbody : Confines A P body Q) (hunlock : P (caller, .unlockDirectory t d)) :
    Confines A P (holding caller t d body) fun _ => True := by
  refine skip (attempted hbody) fun result => ?_
  exact skip (call hunlock) fun _ => .done fun _ _ => trivial

end

end CrashMonitor.Store
