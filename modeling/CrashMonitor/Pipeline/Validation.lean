import CrashMonitor.Pipeline.CycleSearch

/-!
# Exactness of the registry validation

The validation of `config.rs` checks identity, presence, cycles and order one
after another, for the registry and then for every category. It accepts
exactly the valid registries, and a cycle it reports is one.
-/

namespace CrashMonitor.Pipeline

open Precedence List

/-! ## One category -/

section Category

variable {category : PluginCategory} {nodes : List PluginGraphNode} {strict : Bool}

theorem checkCategoryIds_ok_iff {seen} :
    checkCategoryIds category nodes seen = .ok () ↔
      (nodeIds nodes).Nodup ∧ ∀ id ∈ nodeIds nodes, id ∉ seen := by
  induction nodes generalizing seen with
  | nil => simp [checkCategoryIds, nodeIds]
  | cons node rest ih =>
    rw [checkCategoryIds]
    by_cases hseen : node.id ∈ seen
    · simp [hseen, nodeIds]
    rw [if_neg hseen, ih]
    simp only [nodeIds, map_cons, nodup_cons, mem_cons, not_or, forall_eq_or_imp]
    constructor
    · rintro ⟨hrest, hnew⟩
      exact ⟨⟨fun hmem => (hnew _ hmem).1 rfl, hrest⟩, hseen, fun id hid => (hnew id hid).2⟩
    rintro ⟨⟨hhead, hrest⟩, -, hnew⟩
    refine ⟨hrest, fun id hid => ⟨?_, hnew id hid⟩⟩
    rintro rfl
    exact hhead hid

theorem checkCategoryIds_error {seen error}
    (h : checkCategoryIds category nodes seen = .error error) :
    ∃ id, error = .duplicatePluginId id category category := by
  induction nodes generalizing seen with
  | nil => cases h
  | cons node rest ih =>
    rw [checkCategoryIds] at h
    by_cases hseen : node.id ∈ seen
    · rw [if_pos hseen] at h
      cases h
      exact ⟨node.id, rfl⟩
    · rw [if_neg hseen] at h
      exact ih h

theorem findSome?_missing_eq_none_iff (nodes : List PluginGraphNode) (strict : Bool) :
    (nodes.findSome? fun node => (missingDependency nodes strict node).map (node, ·)) = none ↔
      RequiredPresent strict nodes := by
  simp only [List.findSome?_eq_none_iff, Option.map_eq_none_iff, missingDependency,
    List.find?_eq_none, decide_eq_true_eq, indexOf_isNone_iff, not_and, not_not, RequiredPresent]
  refine forall₂_congr fun node _ => ?_
  constructor
  · intro h
    refine ⟨fun dependency hdependency => ?_, fun hstrict dependency hdependency => ?_⟩
    · exact h (dependency, .hard) (mem_dependencies.mpr hdependency) (.inl rfl)
    · exact h (dependency, .orderOnly) (mem_dependencies.mpr hdependency) (.inr hstrict)
  · rintro ⟨hhard, horder⟩ ⟨dependency, kind⟩ hdependency hrequired
    cases kind with
    | hard => exact hhard dependency (mem_dependencies.mp hdependency)
    | orderOnly =>
      exact horder (by simpa using hrequired) dependency (mem_dependencies.mp hdependency)

theorem findSome?_misplaced_eq_none_iff (hunique : (nodeIds nodes).Nodup) :
    (nodes.zipIdx.findSome? fun entry =>
      (misplacedDependency nodes entry.2 entry.1).map (entry.1, ·)) = none ↔
      DependenciesFirst nodes := by
  simp only [List.findSome?_eq_none_iff, Option.map_eq_none_iff, misplacedDependency,
    List.find?_eq_none, DependenciesFirst]
  constructor
  · intro h i j node other hi hj hdeclared
    obtain ⟨kind, hkind⟩ := mem_declared.mp hdeclared
    have hplaced := h (node, i) (mem_zipIdx_iff_getElem?.mpr hi) (other.id, kind) hkind
    simpa [indexOf_of_nodup hunique hj] using hplaced
  · rintro h ⟨node, i⟩ hi ⟨dependency, kind⟩ hkind
    cases hindex : indexOf nodes dependency with
    | none => simp
    | some j =>
      obtain ⟨other, hj, rfl⟩ := indexOf_eq_some hindex
      have := h i j node other (mem_zipIdx_iff_getElem?.mp hi) hj (mem_declared.mpr ⟨kind, hkind⟩)
      simpa using this

/-- The validation of one category, with its four checks in their order. -/
theorem validatePluginGraph_cases {category nodes strict} :
    (∃ id, validatePluginGraphWithPolicy category nodes strict
      = .error (.duplicatePluginId id category category) ∧ ¬ (nodeIds nodes).Nodup) ∨
    (nodeIds nodes).Nodup ∧
      ((∃ id dependency kind, validatePluginGraphWithPolicy category nodes strict
        = .error (.missingDependency category id dependency kind) ∧
          ¬ RequiredPresent strict nodes) ∨
      RequiredPresent strict nodes ∧ ((∃ cycle, validatePluginGraphWithPolicy category nodes strict
          = .error (.dependencyCycle category cycle) ∧
            ClosedWalk (DependsOn nodes) cycle) ∨
        ¬ HasCycle (DependsOn nodes) ∧
          ((∃ id dependency kind, validatePluginGraphWithPolicy category nodes strict
            = .error (.invalidDependencyOrder category id dependency kind) ∧
              ¬ DependenciesFirst nodes) ∨
          DependenciesFirst nodes ∧
            validatePluginGraphWithPolicy category nodes strict = .ok ()))) := by
  simp only [validatePluginGraphWithPolicy]
  cases hids : checkCategoryIds category nodes [] with
  | error error =>
    obtain ⟨id, rfl⟩ := checkCategoryIds_error hids
    refine .inl ⟨id, rfl, fun hunique => ?_⟩
    rw [checkCategoryIds_ok_iff.mpr ⟨hunique, by simp⟩] at hids
    cases hids
  | ok =>
    have hunique := (checkCategoryIds_ok_iff.mp hids).1
    refine .inr ⟨hunique, ?_⟩
    have hpresent := findSome?_missing_eq_none_iff nodes strict
    cases hmissing : nodes.findSome? fun node =>
        (missingDependency nodes strict node).map (node, ·) with
    | some found =>
      obtain ⟨node, dependency, kind⟩ := found
      rw [hmissing] at hpresent
      exact .inl ⟨node.id, dependency, kind, rfl, fun h => by simpa using hpresent.mpr h⟩
    | none =>
      refine .inr ⟨hpresent.mp hmissing, ?_⟩
      cases hcycle : findDependencyCycle nodes with
      | some cycle => exact .inl ⟨cycle, rfl, closedWalk_of_findDependencyCycle hcycle⟩
      | none =>
        have hacyclic : ¬ HasCycle (DependsOn nodes) := by
          rw [← findDependencyCycle_isSome_iff hunique, hcycle]
          simp
        refine .inr ⟨hacyclic, ?_⟩
        have hplaced := findSome?_misplaced_eq_none_iff hunique
        cases hmisplaced : nodes.zipIdx.findSome? fun entry =>
            (misplacedDependency nodes entry.2 entry.1).map (entry.1, ·) with
        | some found =>
          obtain ⟨node, dependency, kind⟩ := found
          rw [hmisplaced] at hplaced
          exact .inl ⟨node.id, dependency, kind, rfl, fun h => by simpa using hplaced.mpr h⟩
        | none => exact .inr ⟨hplaced.mp hmisplaced, rfl⟩

theorem validatePluginGraph_ok_iff :
    validatePluginGraphWithPolicy category nodes strict = .ok () ↔
      (nodeIds nodes).Nodup ∧ RequiredPresent strict nodes ∧ DependenciesFirst nodes := by
  constructor
  · intro hok
    rcases validatePluginGraph_cases with ⟨_, h, -⟩ | ⟨hunique, ⟨_, _, _, h, -⟩ |
        ⟨hpresent, ⟨_, h, -⟩ | ⟨-, ⟨_, _, _, h, -⟩ | ⟨hfirst, -⟩⟩⟩⟩
    all_goals first
      | exact ⟨hunique, hpresent, hfirst⟩
      | (rw [hok] at h; cases h)
  · rintro ⟨hunique, hpresent, hfirst⟩
    rcases validatePluginGraph_cases with ⟨_, -, h⟩ | ⟨-, ⟨_, _, _, -, h⟩ |
        ⟨-, ⟨_, -, h⟩ | ⟨-, ⟨_, _, _, -, h⟩ | ⟨-, hok⟩⟩⟩⟩
    · exact absurd hunique h
    · exact absurd hpresent h
    · exact absurd h.hasCycle (hfirst.not_hasCycle hunique)
    · exact absurd hfirst h
    · exact hok

/-- A cycle is reported as the closed walk that it is, for its category. -/
theorem closedWalk_of_validatePluginGraph {reported cycle}
    (h : validatePluginGraphWithPolicy category nodes strict
      = .error (.dependencyCycle reported cycle)) :
    reported = category ∧ ClosedWalk (DependsOn nodes) cycle := by
  rcases validatePluginGraph_cases with ⟨_, h', -⟩ | ⟨-, ⟨_, _, _, h', -⟩ |
      ⟨-, ⟨_, h', hwalk⟩ | ⟨-, ⟨_, _, _, h', -⟩ | ⟨-, h'⟩⟩⟩⟩
  all_goals
    rw [h] at h'
    cases h'
  exact ⟨rfl, hwalk⟩

theorem validatePluginGraph_reports_cycle_iff (hunique : (nodeIds nodes).Nodup)
    (hpresent : RequiredPresent strict nodes) :
    (∃ cycle, validatePluginGraphWithPolicy category nodes strict
      = .error (.dependencyCycle category cycle)) ↔ HasCycle (DependsOn nodes) := by
  constructor
  · rintro ⟨cycle, h⟩
    exact (closedWalk_of_validatePluginGraph h).2.hasCycle
  intro hcycle
  rcases validatePluginGraph_cases with ⟨_, -, h⟩ | ⟨-, ⟨_, _, _, -, h⟩ |
      ⟨-, ⟨cycle, h, -⟩ | ⟨h, -⟩⟩⟩
  · exact absurd hunique h
  · exact absurd hpresent h
  · exact ⟨cycle, h⟩
  · exact absurd hcycle h

end Category

/-! ## The whole registry -/

/-- The categories of a registry with their nodes. -/
abbrev Categories := List (PluginCategory × List PluginGraphNode)

/-- What the validation is for. -/
structure ValidRegistry (requireOrderDependencies : Bool) (categories : Categories) : Prop where
  unique : (categories.flatMap fun entry => nodeIds entry.2).Nodup
  ownCategory : ∀ entry ∈ categories, ∀ node ∈ entry.2, ∀ dependency ∈ node.declared,
    ∀ other ∈ categories, other.1 ≠ entry.1 → dependency ∉ nodeIds other.2
  present : ∀ entry ∈ categories, RequiredPresent requireOrderDependencies entry.2
  first : ∀ entry ∈ categories, DependenciesFirst entry.2

section Registry

variable {categories : Categories} {strict : Bool}

theorem checkRegistryIds_ok_iff (ids : List (PluginCategory × String))
    (seen : List (String × PluginCategory)) :
    checkRegistryIds ids seen = .ok () ↔
      (ids.map (·.2)).Nodup ∧ ∀ id ∈ ids.map (·.2), seen.lookup id = none := by
  induction ids generalizing seen with
  | nil => simp [checkRegistryIds]
  | cons entry rest ih =>
    obtain ⟨category, id⟩ := entry
    rw [checkRegistryIds]
    cases hseen : seen.lookup id with
    | some first =>
      constructor
      · intro h
        cases h
      rintro ⟨-, hnew⟩
      rw [hnew id (by simp)] at hseen
      cases hseen
    | none =>
      simp only [ih, map_cons, nodup_cons, mem_cons, forall_eq_or_imp, hseen, true_and, lookup_cons]
      constructor
      · rintro ⟨hrest, hnew⟩
        refine ⟨⟨fun hmem => ?_, hrest⟩, fun other hother => ?_⟩
        · simpa using hnew id hmem
        have := hnew other hother
        by_cases hsame : other == id
        · simp [hsame] at this
        · simpa [hsame] using this
      · rintro ⟨⟨hhead, hrest⟩, hnew⟩
        refine ⟨hrest, fun other hother => ?_⟩
        have hne : (other == id) = false := by
          rw [beq_eq_false_iff_ne]
          rintro rfl
          exact hhead hother
        simpa [hne] using hnew other hother

theorem checkRegistryIds_error {ids seen error} (h : checkRegistryIds ids seen = .error error) :
    ∃ id first second, error = .duplicatePluginId id first second := by
  induction ids generalizing seen with
  | nil => cases h
  | cons entry rest ih =>
    obtain ⟨category, id⟩ := entry
    rw [checkRegistryIds] at h
    cases hseen : seen.lookup id with
    | some first =>
      simp only [hseen] at h
      cases h
      exact ⟨id, first, category, rfl⟩
    | none =>
      simp only [hseen] at h
      exact ih h

/-- With unique ids, `ids` maps an id to the one category that has it. -/
theorem categoryOf_eq_some_iff (hunique : (categories.flatMap fun entry => nodeIds entry.2).Nodup)
    {id category} :
    categoryOf categories id = some category ↔
      ∃ nodes, (category, nodes) ∈ categories ∧ id ∈ nodeIds nodes := by
  induction categories with
  | nil => simp [categoryOf]
  | cons entry rest ih =>
    simp only [flatMap_cons, nodup_append] at hunique
    obtain ⟨-, hrest, hdisjoint⟩ := hunique
    have hany : (entry.2.any fun node => node.id = id) = true ↔ id ∈ nodeIds entry.2 := by
      simp [nodeIds]
    by_cases hhere : id ∈ nodeIds entry.2
    · have hnot : ∀ nodes, (category, nodes) ∈ rest → id ∉ nodeIds nodes :=
        fun nodes hnodes hid => hdisjoint id hhere id (mem_flatMap.mpr ⟨_, hnodes, hid⟩) rfl
      simp only [categoryOf, List.find?_cons, hany.mpr hhere, Option.map_some,
        Option.some.injEq, mem_cons]
      constructor
      · rintro rfl
        exact ⟨entry.2, .inl rfl, hhere⟩
      rintro ⟨nodes, hnodes | hnodes, hid⟩
      · rw [← hnodes]
      · exact absurd hid (hnot nodes hnodes)
    · have hfalse : (entry.2.any fun node => node.id = id) = false := by
        rw [← Bool.not_eq_true, hany]
        exact hhere
      have ih := ih hrest
      simp only [categoryOf] at ih
      simp only [categoryOf, List.find?_cons, hfalse, ih, mem_cons]
      constructor
      · rintro ⟨nodes, hnodes, hid⟩
        exact ⟨nodes, .inr hnodes, hid⟩
      rintro ⟨nodes, hnodes | hnodes, hid⟩
      · rw [← hnodes] at hhere
        exact absurd hid hhere
      · exact ⟨nodes, hnodes, hid⟩

theorem findSome?_foreign_eq_none_iff
    (hunique : (categories.flatMap fun entry => nodeIds entry.2).Nodup)
    (entry : PluginCategory × List PluginGraphNode) : (entry.2.findSome? fun node =>
      (foreignDependency categories entry.1 node).map (node, ·)) = none ↔
      ∀ node ∈ entry.2, ∀ dependency ∈ node.declared, ∀ other ∈ categories,
        other.1 ≠ entry.1 → dependency ∉ nodeIds other.2 := by
  simp only [List.findSome?_eq_none_iff, Option.map_eq_none_iff, foreignDependency,
    List.find?_eq_none, Option.any_eq_true, decide_eq_true_eq, not_exists, not_and, not_not]
  refine forall₂_congr fun node _ => ?_
  constructor
  · intro h dependency hdeclared other hother hne hid
    obtain ⟨kind, hkind⟩ := mem_declared.mp hdeclared
    exact hne (h (dependency, kind) hkind other.1
      ((categoryOf_eq_some_iff hunique).mpr ⟨other.2, hother, hid⟩))
  · rintro h ⟨dependency, kind⟩ hkind category hcategory
    obtain ⟨nodes, hnodes, hid⟩ := (categoryOf_eq_some_iff hunique).mp hcategory
    by_contra hne
    exact h dependency (mem_declared.mpr ⟨kind, hkind⟩) (category, nodes) hnodes hne hid

theorem validateCategories_cons (category : PluginCategory) (nodes : List PluginGraphNode)
    (rest : Categories) :
    validateCategories categories strict ((category, nodes) :: rest) = .ok () ↔
      (nodes.findSome? fun node =>
        (foreignDependency categories category node).map (node, ·)) = none ∧
      validatePluginGraphWithPolicy category nodes strict = .ok () ∧
      validateCategories categories strict rest = .ok () := by
  rw [validateCategories]
  cases nodes.findSome? fun node => (foreignDependency categories category node).map (node, ·) with
  | some found =>
    constructor
    · intro h
      cases h
    · rintro ⟨h, -⟩
      cases h
  | none =>
    cases hgraph : validatePluginGraphWithPolicy category nodes strict with
    | error error =>
      constructor
      · intro h
        cases h
      · rintro ⟨-, h, -⟩
        cases h
    | ok =>
      constructor
      · intro h
        exact ⟨rfl, rfl, h⟩
      · rintro ⟨-, -, h⟩
        exact h

theorem validateCategories_ok_iff
    (hunique : (categories.flatMap fun entry => nodeIds entry.2).Nodup) {entries} :
    validateCategories categories strict entries = .ok () ↔ ∀ entry ∈ entries,
        (∀ node ∈ entry.2, ∀ dependency ∈ node.declared, ∀ other ∈ categories,
          other.1 ≠ entry.1 → dependency ∉ nodeIds other.2) ∧
        (nodeIds entry.2).Nodup ∧ RequiredPresent strict entry.2 ∧ DependenciesFirst entry.2 := by
  induction entries with
  | nil => simp [validateCategories]
  | cons entry rest ih =>
    obtain ⟨category, nodes⟩ := entry
    rw [validateCategories_cons, ih, validatePluginGraph_ok_iff,
      findSome?_foreign_eq_none_iff hunique (category, nodes), forall_mem_cons]
    simp only [and_assoc]

theorem map_snd_registryIds :
    (categories.flatMap fun entry => entry.2.map (entry.1, ·.id)).map (·.2)
      = categories.flatMap fun entry => nodeIds entry.2 := by
  simp [map_flatMap, nodeIds, Function.comp_def]

theorem validateRegistry_ok_iff :
    validatePluginRegistryWithPolicy categories strict = .ok () ↔
      ValidRegistry strict categories := by
  rw [validatePluginRegistryWithPolicy]
  have hids := checkRegistryIds_ok_iff
    (categories.flatMap fun entry => entry.2.map (entry.1, ·.id)) []
  rw [map_snd_registryIds] at hids
  constructor
  · intro h
    cases hcheck : checkRegistryIds
        (categories.flatMap fun entry => entry.2.map (entry.1, ·.id)) [] with
    | error error =>
      rw [hcheck] at h
      cases h
    | ok =>
      rw [hcheck] at h
      have hunique := (hids.mp hcheck).1
      have hall := (validateCategories_ok_iff hunique).mp h
      exact ⟨hunique, fun entry hentry => (hall entry hentry).1,
        fun entry hentry => (hall entry hentry).2.2.1,
        fun entry hentry => (hall entry hentry).2.2.2⟩
  · intro h
    rw [hids.mpr ⟨h.unique, by simp⟩]
    refine (validateCategories_ok_iff h.unique).mpr fun entry hentry => ?_
    refine ⟨h.ownCategory entry hentry, ?_, h.present entry hentry, h.first entry hentry⟩
    exact (nodup_flatMap.mp h.unique).1 entry hentry

theorem closedWalk_of_validateCategories {entries category cycle}
    (h : validateCategories categories strict entries = .error (.dependencyCycle category cycle)) :
    ∃ nodes, (category, nodes) ∈ entries ∧ ClosedWalk (DependsOn nodes) cycle := by
  induction entries with
  | nil => cases h
  | cons entry rest ih =>
    obtain ⟨other, nodes⟩ := entry
    rw [validateCategories] at h
    cases hforeign : nodes.findSome? fun node =>
        (foreignDependency categories other node).map (node, ·) with
    | some found =>
      rw [hforeign] at h
      cases h
    | none =>
      rw [hforeign] at h
      cases hgraph : validatePluginGraphWithPolicy other nodes strict with
      | error error =>
        simp only [hgraph] at h
        cases h
        obtain ⟨rfl, hwalk⟩ := closedWalk_of_validatePluginGraph hgraph
        exact ⟨nodes, mem_cons_self, hwalk⟩
      | ok =>
        simp only [hgraph] at h
        obtain ⟨nodes', hmem, hwalk⟩ := ih h
        exact ⟨nodes', mem_cons_of_mem _ hmem, hwalk⟩

theorem closedWalk_of_validateRegistry {category cycle}
    (h : validatePluginRegistryWithPolicy categories strict
      = .error (.dependencyCycle category cycle)) :
    ∃ nodes, (category, nodes) ∈ categories ∧ ClosedWalk (DependsOn nodes) cycle := by
  rw [validatePluginRegistryWithPolicy] at h
  cases hcheck : checkRegistryIds
      (categories.flatMap fun entry => entry.2.map (entry.1, ·.id)) [] with
  | error error =>
    rw [hcheck] at h
    obtain ⟨id, first, second, rfl⟩ := checkRegistryIds_error hcheck
    cases h
  | ok =>
    rw [hcheck] at h
    exact closedWalk_of_validateCategories h

/-- The validation accepts exactly the valid registries, and a cycle that it
or the check of one category reports is a closed walk of that category; the
check of a category reports one exactly when there is one. -/
theorem registry_validation_exact (categories : Categories) (strict : Bool) :
    (validatePluginRegistryWithPolicy categories strict = .ok () ↔
      ValidRegistry strict categories) ∧
    (∀ category cycle, validatePluginRegistryWithPolicy categories strict
        = .error (.dependencyCycle category cycle) →
      ∃ nodes, (category, nodes) ∈ categories ∧ ClosedWalk (DependsOn nodes) cycle) ∧
    ∀ category nodes, (nodeIds nodes).Nodup → RequiredPresent strict nodes →
      ((∃ cycle, validatePluginGraphWithPolicy category nodes strict
          = .error (.dependencyCycle category cycle)) ↔
        HasCycle (DependsOn nodes)) ∧
      ∀ reported cycle, validatePluginGraphWithPolicy category nodes strict
          = .error (.dependencyCycle reported cycle) → ClosedWalk (DependsOn nodes) cycle :=
  ⟨validateRegistry_ok_iff, fun _ _ => closedWalk_of_validateRegistry,
    fun _ _ hunique hpresent => ⟨validatePluginGraph_reports_cycle_iff hunique hpresent,
      fun _ _ h => (closedWalk_of_validatePluginGraph h).2⟩⟩

end Registry

end CrashMonitor.Pipeline
