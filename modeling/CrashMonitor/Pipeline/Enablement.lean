import CrashMonitor.Pipeline.Validation
import Mathlib.Data.Finset.Sort
import Mathlib.Order.Bounds.Basic

/-!
# Enablement of plugins

`close_plugin_enablement` of `config.rs`: as long as some enabled plugin has a
hard dependency that is not enabled, the first such plugin is disabled, with a
diagnostic. What is left does not depend on the order of the removals: it is
the greatest subset of the request that has all its hard dependencies.
-/

namespace CrashMonitor.Pipeline

open List

/-! ## The code -/

inductive PrivacyLevel where
  | minimal
  | diagnostic
  | full
  deriving DecidableEq, Repr

inductive ConsentState where
  | notGranted
  | granted
  deriving DecidableEq, Repr

inductive ConfigValidationDiagnostic where
  | dependentDisabled (category : PluginCategory) (pluginId dependency : String)
  | sensitiveCollectorDisabled (pluginId : String) (level : PrivacyLevel) (consent : ConsentState)
  | sensitiveEvidenceDenied (evidence : String) (level : PrivacyLevel) (consent : ConsentState)
  deriving DecidableEq, Repr

structure PluginSpec where
  category : PluginCategory
  id : String
  hardDependencies : List String
  orderDependencies : List String
  deriving DecidableEq, Repr

section Code

variable {T : Type} [LinearOrder T] (asRef : T → String)

variable (specs : List PluginSpec)

/-- The `for` loop of one round: the first enabled plugin that lacks a hard
dependency, as it is enabled, with the first dependency it lacks. A `BTreeSet`
is read in ascending order. -/
def findDependent (enabled : Finset T) : Option (PluginSpec × T × String) :=
  specs.findSome? fun spec =>
    match enabled.sort.find? (asRef · = spec.id) with
    | none => none
    | some enabledId =>
      (spec.hardDependencies.find? fun dependency =>
        !enabled.sort.any (asRef · = dependency)).map (spec, enabledId, ·)

/-- The outer loop. -/
def closeRounds (specs : List PluginSpec) :
    (rounds : Nat) → Finset T → Finset T × List ConfigValidationDiagnostic
  | 0, enabled => (enabled, [])
  | rounds + 1, enabled =>
    match findDependent asRef specs enabled with
    | none => (enabled, [])
    | some (spec, enabledId, dependency) =>
      let closed := closeRounds specs rounds (enabled.erase enabledId)
      (closed.1, .dependentDisabled spec.category spec.id dependency :: closed.2)

/-- `close_plugin_enablement`. Every round but the last disables a plugin, so
their number bounds the rounds. -/
def closePluginEnablement (enabled : Finset T) : Finset T × List ConfigValidationDiagnostic :=
  closeRounds asRef specs enabled.card enabled

/-- What `resolve_plugin_enablement` takes from the configuration. -/
structure EnablementConfig (T : Type) where
  enabled : Bool
  sensitiveCollectorDiagnostics : List ConfigValidationDiagnostic
  configuredPluginToggles : List (T × Bool)

/-- The registry of the specifications, one entry for every category. -/
def specCategories : Categories :=
  [PluginCategory.filter, .collector, .preProcessor, .postProcessor, .notifier].map
    fun category => (category, (specs.filter (·.category = category)).map fun spec =>
      ⟨spec.id, spec.hardDependencies, spec.orderDependencies⟩)

/-- The plugins that the configuration turns on. -/
def EnablementConfig.requested (config : EnablementConfig T) : Finset T :=
  ((config.configuredPluginToggles.filter (·.2)).map (·.1)).toFinset

/-- `resolve_plugin_enablement`. -/
def resolvePluginEnablement (config : EnablementConfig T) :
    Except ConfigValidationError (Finset T × List ConfigValidationDiagnostic) := do
  validatePluginRegistryWithPolicy (specCategories specs) true
  if config.enabled then
    let closed := closePluginEnablement asRef specs config.requested
    return (closed.1, config.sensitiveCollectorDiagnostics ++ closed.2)
  else return (∅, [])

end Code

/-! ## The greatest closed subset -/

section Closure

variable {T : Type} (asRef : T → String)

/-- Every specified plugin of a set has its hard dependencies there. -/
def HardClosed (specs : List PluginSpec) (enabled : Finset T) : Prop :=
  ∀ spec ∈ specs, ∀ t ∈ enabled, asRef t = spec.id →
    ∀ dependency ∈ spec.hardDependencies, ∃ u ∈ enabled, asRef u = dependency

variable {asRef}

theorem HardClosed.of_perm {specs specs' enabled}
    (h : HardClosed asRef specs enabled) (hperm : specs.Perm specs') :
    HardClosed asRef specs' enabled := fun spec hspec => h spec (hperm.mem_iff.mpr hspec)

end Closure

/-- The plugin that a diagnostic says is disabled. -/
def ConfigValidationDiagnostic.disables (diagnostic : ConfigValidationDiagnostic)
    (id : String) : Bool :=
  match diagnostic with
  | .dependentDisabled _ pluginId _ => pluginId = id
  | _ => false

section Loop

variable {T : Type} [LinearOrder T] {asRef : T → String} {specs : List PluginSpec}
  {enabled : Finset T}
variable {spec : PluginSpec} {enabledId : T} {dependency : String}

/-- What a round finds. -/
theorem findDependent_eq_some
    (h : findDependent asRef specs enabled = some (spec, enabledId, dependency)) :
    spec ∈ specs ∧ enabledId ∈ enabled ∧ asRef enabledId = spec.id ∧
      dependency ∈ spec.hardDependencies ∧ ∀ u ∈ enabled, asRef u ≠ dependency := by
  obtain ⟨found, hspec, hfound⟩ := exists_of_findSome?_eq_some h
  cases hid : enabled.sort.find? (asRef · = found.id) with
  | none =>
    rw [hid] at hfound
    cases hfound
  | some id =>
    rw [hid] at hfound
    simp only [Option.map_eq_some_iff, Prod.mk.injEq] at hfound
    obtain ⟨lacking, hlacking, rfl, rfl, rfl⟩ := hfound
    have hname : asRef id = found.id := by simpa using List.find?_some hid
    have hmem : id ∈ enabled := (Finset.mem_sort _).mp (mem_of_find?_eq_some hid)
    have habsent : ∀ u ∈ enabled, asRef u ≠ lacking := by simpa using List.find?_some hlacking
    exact ⟨hspec, hmem, hname, mem_of_find?_eq_some hlacking, habsent⟩

/-- A round finds nothing exactly when the set is closed. -/
theorem findDependent_eq_none_iff :
    findDependent asRef specs enabled = none ↔ HardClosed asRef specs enabled := by
  rw [findDependent, List.findSome?_eq_none_iff]
  refine forall₂_congr fun spec _ => ?_
  cases hid : enabled.sort.find? (asRef · = spec.id) with
  | none =>
    have habsent : ∀ t ∈ enabled, asRef t ≠ spec.id := by simpa [List.find?_eq_none] using hid
    simp only [true_iff]
    intro t ht hname
    exact absurd hname (habsent t ht)
  | some id =>
    have hname : asRef id = spec.id := by simpa using List.find?_some hid
    have hmem : id ∈ enabled := (Finset.mem_sort _).mp (mem_of_find?_eq_some hid)
    simp only [Option.map_eq_none_iff, List.find?_eq_none, Bool.not_eq_true',
      Bool.not_eq_false, any_eq_true, decide_eq_true_eq, Finset.mem_sort]
    constructor
    · intro h t _ _
      exact h
    · intro h
      exact h id hmem hname

/-- A closed set survives the removal of a plugin that lacks a dependency. -/
theorem HardClosed.subset_erase {kept} (hkept : HardClosed asRef specs kept)
    (hsubset : kept ⊆ enabled)
    (h : findDependent asRef specs enabled = some (spec, enabledId, dependency)) :
    kept ⊆ enabled.erase enabledId := by
  obtain ⟨hspec, -, hname, hdependency, habsent⟩ := findDependent_eq_some h
  intro t ht
  rw [Finset.mem_erase]
  refine ⟨?_, hsubset ht⟩
  rintro rfl
  obtain ⟨u, hu, hdep⟩ := hkept spec hspec t ht hname dependency hdependency
  exact habsent u (hsubset hu) hdep

theorem card_erase_of_findDependent
    (h : findDependent asRef specs enabled = some (spec, enabledId, dependency)) :
    (enabled.erase enabledId).card + 1 = enabled.card := by
  obtain ⟨-, hmem, -⟩ := findDependent_eq_some h
  exact Finset.card_erase_add_one hmem

/-- With a round for every plugin, the loop ends at the greatest closed subset. -/
theorem closeRounds_isGreatest {rounds} (hrounds : enabled.card ≤ rounds) :
    IsGreatest {kept | kept ⊆ enabled ∧ HardClosed asRef specs kept}
      (closeRounds asRef specs rounds enabled).1 := by
  induction rounds generalizing enabled with
  | zero =>
    have hempty : enabled = ∅ := Finset.card_eq_zero.mp (by omega)
    subst hempty
    refine ⟨⟨Finset.Subset.refl _, ?_⟩, fun kept hkept => hkept.1⟩
    intro spec _ t ht
    exact absurd ht (Finset.notMem_empty t)
  | succ rounds ih =>
    rw [closeRounds]
    cases hfound : findDependent asRef specs enabled with
    | none =>
      exact ⟨⟨Finset.Subset.refl _, findDependent_eq_none_iff.mp hfound⟩, fun kept hkept => hkept.1⟩
    | some found =>
      obtain ⟨spec, enabledId, dependency⟩ := found
      have hcard := card_erase_of_findDependent hfound
      obtain ⟨⟨hsubset, hclosed⟩, hgreatest⟩ := @ih (enabled.erase enabledId) (by omega)
      refine ⟨⟨hsubset.trans (Finset.erase_subset _ _), hclosed⟩, ?_⟩
      rintro kept ⟨hkept, hkeptClosed⟩
      exact hgreatest ⟨hkeptClosed.subset_erase hkept hfound, hkeptClosed⟩

theorem closeRounds_subset {rounds} :
    (closeRounds asRef specs rounds enabled).1 ⊆ enabled := by
  induction rounds generalizing enabled with
  | zero => exact Finset.Subset.refl _
  | succ rounds ih =>
    rw [closeRounds]
    cases findDependent asRef specs enabled with
    | none => exact Finset.Subset.refl _
    | some found => exact ih.trans (Finset.erase_subset _ _)

/-- More rounds than plugins change nothing. -/
theorem closeRounds_settled {rounds rounds'} (hrounds : enabled.card ≤ rounds)
    (hrounds' : enabled.card ≤ rounds') :
    closeRounds asRef specs rounds enabled = closeRounds asRef specs rounds' enabled := by
  induction rounds generalizing enabled rounds' with
  | zero =>
    have hempty : enabled = ∅ := Finset.card_eq_zero.mp (by omega)
    subst hempty
    have hnone : findDependent asRef specs (∅ : Finset T) = none := by
      rw [findDependent_eq_none_iff]
      intro spec _ t ht
      exact absurd ht (Finset.notMem_empty t)
    cases rounds' with
    | zero => rfl
    | succ rounds' => simp [closeRounds, hnone]
  | succ rounds ih =>
    cases hfound : findDependent asRef specs enabled with
    | none =>
      cases rounds' with
      | zero => simp [closeRounds, hfound]
      | succ rounds' => simp [closeRounds, hfound]
    | some found =>
      obtain ⟨spec, enabledId, dependency⟩ := found
      have hcard := card_erase_of_findDependent hfound
      cases rounds' with
      | zero => omega
      | succ rounds' =>
        have hsame := @ih (enabled.erase enabledId) rounds' (by omega) (by omega)
        simp [closeRounds, hfound, hsame]

/-- Every diagnostic names a specified plugin that was disabled and one of its
hard dependencies, which is absent in the end. -/
theorem mem_closeRounds_diagnostics {rounds diagnostic}
    (h : diagnostic ∈ (closeRounds asRef specs rounds enabled).2) :
    ∃ spec ∈ specs, ∃ dependency ∈ spec.hardDependencies,
      diagnostic = .dependentDisabled spec.category spec.id dependency ∧
      (∃ t ∈ enabled, t ∉ (closeRounds asRef specs rounds enabled).1 ∧ asRef t = spec.id) ∧
      ∀ u ∈ (closeRounds asRef specs rounds enabled).1, asRef u ≠ dependency := by
  induction rounds generalizing enabled with
  | zero => simp [closeRounds] at h
  | succ rounds ih =>
    rw [closeRounds] at h ⊢
    cases hfound : findDependent asRef specs enabled with
    | none => simp [hfound] at h
    | some found =>
      obtain ⟨spec, enabledId, dependency⟩ := found
      obtain ⟨hspec, hmem, hname, hdependency, habsent⟩ := findDependent_eq_some hfound
      have hsubset : (closeRounds asRef specs rounds (enabled.erase enabledId)).1
          ⊆ enabled.erase enabledId := closeRounds_subset
      simp only [hfound, mem_cons] at h ⊢
      rcases h with rfl | h
      · refine ⟨spec, hspec, dependency, hdependency, rfl, ⟨enabledId, hmem, ?_, hname⟩, ?_⟩
        · intro hkept
          exact absurd (hsubset hkept) (Finset.notMem_erase _ _)
        · intro u hu
          exact habsent u (Finset.mem_of_mem_erase (hsubset hu))
      · obtain ⟨spec', hspec', dependency', hdependency', hdiagnostic,
          ⟨t, ht, htOut, htName⟩, hout⟩ := ih h
        exact ⟨spec', hspec', dependency', hdependency', hdiagnostic,
          ⟨t, Finset.mem_of_mem_erase ht, htOut, htName⟩, hout⟩

/-- An id has as many diagnostics as plugins that were disabled under it. -/
theorem countP_closeRounds_diagnostics (rounds : Nat) (id : String) :
    (closeRounds asRef specs rounds enabled).2.countP (·.disables id)
      = ((enabled \ (closeRounds asRef specs rounds enabled).1).filter (asRef · = id)).card := by
  induction rounds generalizing enabled with
  | zero => simp [closeRounds]
  | succ rounds ih =>
    rw [closeRounds]
    cases hfound : findDependent asRef specs enabled with
    | none => simp
    | some found =>
      obtain ⟨spec, enabledId, dependency⟩ := found
      obtain ⟨-, hmem, hname, -⟩ := findDependent_eq_some hfound
      have hsubset : (closeRounds asRef specs rounds (enabled.erase enabledId)).1
          ⊆ enabled.erase enabledId := closeRounds_subset
      have ih := @ih (enabled.erase enabledId)
      simp only
      generalize closeRounds asRef specs rounds (enabled.erase enabledId) = closed
        at ih hsubset ⊢
      -- the plugin of this round is removed beside those of the later ones
      have hout : enabledId ∉ closed.1 := fun hkept =>
        absurd (hsubset hkept) (Finset.notMem_erase _ _)
      have hsplit : enabled \ closed.1 = insert enabledId (enabled.erase enabledId \ closed.1) := by
        ext t
        by_cases ht : t = enabledId
        · subst ht
          simp [hmem, hout]
        · simp [ht]
      have hnew : enabledId ∉ (enabled.erase enabledId \ closed.1).filter (asRef · = id) := by simp
      rw [countP_cons, ih, hsplit, Finset.filter_insert]
      by_cases hid : spec.id = id
      · rw [if_pos (hname.trans hid), Finset.card_insert_of_notMem hnew]
        simp [ConfigValidationDiagnostic.disables, hid]
      · rw [if_neg (fun h => hid (hname.symm.trans h))]
        simp [ConfigValidationDiagnostic.disables, hid]

end Loop

/-! ## The result -/

section Result

variable {T : Type} [LinearOrder T] (asRef : T → String)

/-- What closing a request is for. -/
structure ClosesEnablement (specs : List PluginSpec) (requested : Finset T)
    (enabled : Finset T) (diagnostics : List ConfigValidationDiagnostic) : Prop where
  /-- Nothing is added, and as little as possible is removed. -/
  greatest : IsGreatest {kept | kept ⊆ requested ∧ HardClosed asRef specs kept} enabled
  /-- Every removal has its own diagnostic. -/
  counted : ∀ id, diagnostics.countP (·.disables id)
    = ((requested \ enabled).filter (asRef · = id)).card
  /-- Where names tell plugins apart, that is one for each removed plugin. -/
  single : Function.Injective asRef → ∀ t ∈ requested, t ∉ enabled →
    diagnostics.countP (·.disables (asRef t)) = 1
  /-- Every diagnostic is about a removed plugin and a dependency it lacks. -/
  named : ∀ diagnostic ∈ diagnostics, ∃ spec ∈ specs, ∃ dependency ∈ spec.hardDependencies,
    diagnostic = .dependentDisabled spec.category spec.id dependency ∧
    (∃ t ∈ requested, t ∉ enabled ∧ asRef t = spec.id) ∧ ∀ u ∈ enabled, asRef u ≠ dependency

/-- The loop terminates with the greatest closed subset of the request and a
diagnostic for every plugin it removed, whatever the order of the
specifications and the dependencies between them. -/
theorem plugin_enablement_closed (specs : List PluginSpec) (requested : Finset T) :
    (∀ rounds, requested.card ≤ rounds →
      closeRounds asRef specs rounds requested = closePluginEnablement asRef specs requested ∧
      findDependent asRef specs (closeRounds asRef specs rounds requested).1 = none) ∧
    ClosesEnablement asRef specs requested (closePluginEnablement asRef specs requested).1
      (closePluginEnablement asRef specs requested).2 ∧ ∀ specs', specs.Perm specs' →
      (closePluginEnablement asRef specs' requested).1
        = (closePluginEnablement asRef specs requested).1 := by
  have hgreatest : ∀ specs : List PluginSpec, IsGreatest
      {kept | kept ⊆ requested ∧ HardClosed asRef specs kept}
      (closePluginEnablement asRef specs requested).1 :=
    fun specs => closeRounds_isGreatest (Nat.le_refl _)
  have hcounted : ∀ id, (closePluginEnablement asRef specs requested).2.countP (·.disables id)
      = ((requested \ (closePluginEnablement asRef specs requested).1).filter
        (asRef · = id)).card := countP_closeRounds_diagnostics requested.card
  refine ⟨?_, ⟨hgreatest specs, hcounted, ?_, ?_⟩, ?_⟩
  · intro rounds hrounds
    refine ⟨closeRounds_settled hrounds (Nat.le_refl _), ?_⟩
    rw [findDependent_eq_none_iff]
    exact (closeRounds_isGreatest hrounds).1.2
  · intro hinjective t ht hout
    refine (hcounted (asRef t)).trans ?_
    rw [Finset.card_eq_one]
    refine ⟨t, ?_⟩
    ext u
    simp only [Finset.mem_filter, Finset.mem_sdiff, Finset.mem_singleton]
    constructor
    · rintro ⟨-, hname⟩
      exact hinjective hname
    · rintro rfl
      exact ⟨⟨ht, hout⟩, rfl⟩
  · intro diagnostic hdiagnostic
    exact mem_closeRounds_diagnostics hdiagnostic
  · intro specs' hperm
    refine (hgreatest specs').unique ?_
    obtain ⟨⟨hsubset, hclosed⟩, hupper⟩ := hgreatest specs
    refine ⟨⟨hsubset, hclosed.of_perm hperm⟩, ?_⟩
    rintro kept ⟨hkept, hkeptClosed⟩
    exact hupper ⟨hkept, hkeptClosed.of_perm hperm.symm⟩

/-- In a valid registry a hard dependency is specified before its dependent. -/
theorem specified_before {specs} (h : ValidRegistry true (specCategories specs)) {spec}
    (hspec : spec ∈ specs) {dependency} (hdependency : dependency ∈ spec.hardDependencies) :
    ∃ other, other.id = dependency ∧ other.category = spec.category ∧ [other, spec] <+ specs := by
  let own := specs.filter (·.category = spec.category)
  let node := fun other : PluginSpec =>
    PluginGraphNode.mk other.id other.hardDependencies other.orderDependencies
  have hentry : (spec.category, own.map node) ∈ specCategories specs := by
    cases hcategory : spec.category <;> simp [specCategories, own, node, hcategory]
  have hown : spec ∈ own := mem_filter.mpr ⟨hspec, by simp⟩
  have hpresent := (h.present _ hentry _ (mem_map_of_mem hown)).1 _ hdependency
  simp only [nodeIds, map_map, mem_map] at hpresent
  obtain ⟨other, hother, rfl⟩ := hpresent
  obtain ⟨i, hi⟩ := mem_iff_getElem?.mp hown
  obtain ⟨j, hj⟩ := mem_iff_getElem?.mp hother
  have hlt : j < i := h.first _ hentry i j (node spec) (node other) (by simp [hi]) (by simp [hj])
    (mem_append_left _ hdependency)
  have hbefore : other ∈ own.take i := mem_of_getElem? (by rw [getElem?_take_of_lt hlt, hj])
  have hafter : spec ∈ own.drop i := mem_of_getElem? (by rw [getElem?_drop, Nat.add_zero, hi])
  refine ⟨other, rfl, by simpa using (mem_filter.mp hother).2, ?_⟩
  have hpair := (singleton_sublist.mpr hbefore).append (singleton_sublist.mpr hafter)
  rw [take_append_drop] at hpair
  exact hpair.trans filter_sublist

/-- **Enablement and order.** `resolve_plugin_enablement` fails exactly for an
invalid registry. Otherwise it enables only what is requested, and with a plugin
each of its hard dependencies, which is specified before it in its category. -/
theorem enabled_after_dependencies (specs : List PluginSpec) (config : EnablementConfig T) :
    match resolvePluginEnablement asRef specs config with
    | .error _ => ¬ ValidRegistry true (specCategories specs)
    | .ok (enabled, _) => ValidRegistry true (specCategories specs) ∧
        enabled ⊆ config.requested ∧ ∀ spec ∈ specs, ∀ t ∈ enabled, asRef t = spec.id →
          ∀ dependency ∈ spec.hardDependencies, (∃ u ∈ enabled, asRef u = dependency) ∧
            ∃ other, other.id = dependency ∧ other.category = spec.category ∧
              [other, spec] <+ specs := by
  rw [resolvePluginEnablement]
  cases hvalid : validatePluginRegistryWithPolicy (specCategories specs) true with
  | error error =>
    intro h
    rw [validateRegistry_ok_iff.mpr h] at hvalid
    cases hvalid
  | ok =>
    have hregistry := validateRegistry_ok_iff.mp hvalid
    cases hon : config.enabled with
    | true =>
      obtain ⟨hsubset, hclosed⟩ : _ ∧ HardClosed asRef specs _ :=
        (closeRounds_isGreatest (Nat.le_refl config.requested.card)).1
      refine ⟨hregistry, hsubset, fun spec hspec t ht hid dependency hdependency => ?_⟩
      exact ⟨hclosed spec hspec t ht hid dependency hdependency,
        specified_before hregistry hspec hdependency⟩
    | false =>
      refine ⟨hregistry, Finset.empty_subset _, ?_⟩
      intro spec _ t ht
      exact absurd ht (Finset.notMem_empty t)

end Result

end CrashMonitor.Pipeline
