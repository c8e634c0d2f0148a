import CrashMonitor.Pipeline.Validation
import Mathlib.Data.Prod.Lex

/-!
# The order of the plugins

`stable_plugin_order` places, one after another, the least of the plugins
whose registered dependencies have all been placed. Its result is a greedy
order in the sense of `Precedence`, so it is determined by the plugins and
their keys. That the post-processors run in the order of their phases is not
enforced there: it follows from what the validation afterwards accepts.
-/

namespace CrashMonitor.Pipeline

open Precedence Function List

section Order

variable {P : Type} (plugin : P → Plugin) (phaseRank : P → Nat)
variable {entry : Nat × P} {remaining l : List (Nat × P)}

/-- The graph nodes of a list of plugins. -/
def graphOf (plugins : List P) : List PluginGraphNode :=
  plugins.map fun p => pluginGraphNode (plugin p)

/-- The key of a plugin with its insertion index, compared from the left. -/
def placementKey (index : Nat) (p : P) : ℕ ×ₗ ℕ ×ₗ ℕ :=
  toLex (phaseRank p, toLex ((plugin p).priority.rank, index))

/-- What the order of a list of plugins is for. -/
structure StablyOrdered (plugins result : List P) : Prop where
  perm : result.Perm plugins
  afterDependencies : ∀ before p later, result = before ++ p :: later →
    ∀ q ∈ plugins, (plugin q).name ∈ (plugin p).dependencies → q ∈ before
  least : ∀ before p later, result = before ++ p :: later →
    ∀ (i j : Nat) (q : P), plugins[i]? = some p → plugins[j]? = some q → q ∉ before →
      (∀ r ∈ plugins, (plugin r).name ∈ (plugin q).dependencies → r ∈ before) →
      placementKey plugin phaseRank i p ≤ placementKey plugin phaseRank j q
  again : stablePluginOrder plugin phaseRank result = result

/-! ## Entries -/

/-- An entry depends on another. -/
def Awaits (entry other : Nat × P) : Prop := (plugin other.2).name ∈ (plugin entry.2).dependencies

/-- An entry is preferred to another. -/
def Preferred (entry other : Nat × P) : Prop := placementKey plugin phaseRank entry.1 entry.2
    ≤ placementKey plugin phaseRank other.1 other.2

/-- The entries that `stable_plugin_order` starts with. -/
def entriesOf (plugins : List P) : List (Nat × P) :=
  plugins.zipIdx.map fun entry => (entry.2, entry.1)

variable {plugin phaseRank}

theorem mem_entriesOf {plugins} : entry ∈ entriesOf plugins ↔ plugins[entry.1]? = some entry.2 := by
  simp only [entriesOf, mem_map, Prod.exists]
  constructor
  · rintro ⟨p, i, hmem, rfl⟩
    exact mem_zipIdx_iff_getElem?.mp hmem
  · intro h
    exact ⟨entry.2, entry.1, mem_zipIdx_iff_getElem?.mpr h, rfl⟩

@[simp] theorem map_snd_entriesOf (plugins : List P) : (entriesOf plugins).map (·.2) = plugins := by
  simp [entriesOf, comp_def]

theorem entriesOf_pairwise {plugins : List P} :
    (entriesOf plugins).Pairwise fun a b => a.1 < b.1 := by
  have hindexes : (entriesOf plugins).map (·.1) = .range' 0 plugins.length := by
    simp [entriesOf, comp_def]
  have hsorted : ((entriesOf plugins).map (·.1)).Pairwise (· < ·) := by
    rw [hindexes]
    exact pairwise_lt_range'
  exact pairwise_map.mp hsorted

theorem nodup_fst_entriesOf {plugins : List P} : ((entriesOf plugins).map (·.1)).Nodup := by
  rw [List.Nodup, pairwise_map]
  exact (entriesOf_pairwise).imp fun h => Nat.ne_of_lt h

theorem isReady_iff :
    isReady plugin remaining entry.2 = true ↔ Ready (Awaits plugin) remaining entry := by
  simp only [isReady, all_eq_true, Bool.not_eq_true', any_eq_false,
    decide_eq_true_eq, Ready, Awaits]
  constructor
  · intro h other hother hawaits
    exact h _ hawaits other hother rfl
  · intro h dependency hdependency other hother hname
    exact h other hother (hname ▸ hdependency)

theorem keyLt_iff (a b : Nat × P) :
    keyLt (orderKey plugin phaseRank a) (orderKey plugin phaseRank b) = true ↔
      ¬ Preferred plugin phaseRank b a := by
  rw [Preferred, not_le]
  simp only [keyLt, Bool.or_eq_true, Bool.and_eq_true, decide_eq_true_eq]
  simp only [orderKey, placementKey, Prod.Lex.toLex_lt_toLex]

theorem leastEntry_eq_none_iff : leastEntry plugin phaseRank l = none ↔ l = [] := by
  cases l with
  | nil => simp [leastEntry]
  | cons entry rest =>
    rw [leastEntry]
    cases leastEntry plugin phaseRank rest with
    | none => simp
    | some other =>
      by_cases h : keyLt (orderKey plugin phaseRank other) (orderKey plugin phaseRank entry)
      · simp [h]
      · simp [h]

/-- `min_by_key` finds an entry that is preferred to every other. -/
theorem leastEntry_spec {least} (h : leastEntry plugin phaseRank l = some least) :
    least ∈ l ∧ ∀ other ∈ l, Preferred plugin phaseRank least other := by
  induction l generalizing least with
  | nil => cases h
  | cons entry rest ih =>
    rw [leastEntry] at h
    cases hrest : leastEntry plugin phaseRank rest with
    | none =>
      rw [hrest] at h
      cases h
      rw [leastEntry_eq_none_iff] at hrest
      subst hrest
      simp [Preferred]
    | some other =>
      rw [hrest] at h
      obtain ⟨hmem, hleast⟩ := ih hrest
      simp only at h
      by_cases hlt : keyLt (orderKey plugin phaseRank other)
          (orderKey plugin phaseRank entry) = true
      · rw [if_pos hlt] at h
        cases h
        rw [keyLt_iff, Preferred, not_le] at hlt
        exact ⟨mem_cons_of_mem _ hmem, forall_mem_cons.mpr ⟨hlt.le, hleast⟩⟩
      · rw [if_neg hlt] at h
        cases h
        refine ⟨mem_cons_self, ?_⟩
        rw [keyLt_iff, not_not] at hlt
        exact forall_mem_cons.mpr ⟨le_refl _, fun e he => le_trans hlt (hleast e he)⟩

/-! ## The loop -/

/-- Taking the chosen entry out. -/
theorem perm_cons_filter (hnodup : (remaining.map (·.1)).Nodup) (hentry : entry ∈ remaining) :
    (entry :: remaining.filter (·.1 ≠ entry.1)).Perm remaining := by
  induction remaining with
  | nil => cases hentry
  | cons first rest ih =>
    simp only [map_cons, nodup_cons] at hnodup
    obtain ⟨hfirst, hrest⟩ := hnodup
    rcases mem_cons.mp hentry with rfl | hmem
    · have hkeep : rest.filter (fun e => e.1 ≠ entry.1) = rest := by
        rw [filter_eq_self]
        intro e he
        simp only [decide_eq_true_eq]
        intro hsame
        exact hfirst (hsame ▸ mem_map_of_mem he)
      simp only [filter_cons, ne_eq, not_true_eq_false, decide_false, Bool.false_eq_true,
        if_false] at hkeep ⊢
      rw [hkeep]
    · have hne : first.1 ≠ entry.1 := by
        intro hsame
        exact hfirst (hsame ▸ mem_map_of_mem hmem)
      rw [filter_cons, if_pos (by simpa using hne)]
      exact (List.Perm.swap first entry _).trans ((ih hrest hmem).cons first)

theorem nodup_filter (hnodup : (remaining.map (·.1)).Nodup) (keep : Nat × P → Bool) :
    ((remaining.filter keep).map (·.1)).Nodup := hnodup.sublist (filter_sublist.map _)

/-- Every plugin is placed once, cycles or not. -/
theorem orderLoop_perm {rounds} (hnodup : (remaining.map (·.1)).Nodup) :
    (orderLoop plugin phaseRank rounds remaining).Perm (remaining.map (·.2)) := by
  induction rounds generalizing remaining with
  | zero => exact .refl _
  | succ rounds ih =>
    rw [orderLoop]
    cases hleast : leastEntry plugin phaseRank
        (remaining.filter fun entry => isReady plugin remaining entry.2) with
    | none => exact .refl _
    | some candidate =>
      have hmem : candidate ∈ remaining := (mem_filter.mp (leastEntry_spec hleast).1).1
      have hplaced := ih (nodup_filter hnodup (·.1 ≠ candidate.1))
      exact (hplaced.cons candidate.2).trans ((perm_cons_filter hnodup hmem).map Prod.snd)

/-- Without a cycle, the loop places the entries in a greedy order. -/
theorem orderLoop_greedy {rounds} (hrounds : remaining.length ≤ rounds)
    (hnodup : (remaining.map (·.1)).Nodup)
    (hacyclic : ¬ HasCycle fun a b => a ∈ remaining ∧ b ∈ remaining ∧ Awaits plugin a b) :
    ∃ placed, placed.Perm remaining ∧
      orderLoop plugin phaseRank rounds remaining = placed.map (·.2) ∧
      Greedy (Awaits plugin) (Preferred plugin phaseRank) placed := by
  induction rounds generalizing remaining with
  | zero =>
    have hempty : remaining = [] := length_eq_zero_iff.mp (by omega)
    subst hempty
    exact ⟨[], .refl _, rfl, trivial⟩
  | succ rounds ih =>
    rw [orderLoop]
    cases hleast : leastEntry plugin phaseRank
        (remaining.filter fun entry => isReady plugin remaining entry.2) with
    | none =>
      -- nothing is ready, so nothing is left
      rw [leastEntry_eq_none_iff, filter_eq_nil_iff] at hleast
      by_cases hne : remaining = []
      · subst hne
        exact ⟨[], .refl _, rfl, trivial⟩
      · obtain ⟨entry, hentry, hready⟩ := exists_ready hne hacyclic
        exact absurd (isReady_iff.mpr hready) (hleast entry hentry)
    | some candidate =>
      obtain ⟨hcandidate, hbest⟩ := leastEntry_spec hleast
      obtain ⟨hmem, hready⟩ := mem_filter.mp hcandidate
      have hperm := perm_cons_filter hnodup hmem
      have hlength : (remaining.filter (·.1 ≠ candidate.1)).length ≤ rounds := by
        have := hperm.length_eq
        simp only [length_cons] at this
        omega
      have hsubset : ∀ e ∈ remaining.filter (·.1 ≠ candidate.1), e ∈ remaining :=
        fun e he => (mem_filter.mp he).1
      obtain ⟨placed, hplaced, hloop, hgreedy⟩ := ih hlength
        (nodup_filter hnodup ..) fun hcycle =>
          hacyclic (hcycle.map id fun a b hab => ⟨hsubset a hab.1, hsubset b hab.2.1, hab.2.2⟩)
      have hall : (candidate :: placed).Perm remaining := (hplaced.cons candidate).trans hperm
      refine ⟨candidate :: placed, hall, ?_, ?_, ?_, hgreedy⟩
      · show candidate.2 :: orderLoop plugin phaseRank rounds _ = _
        rw [hloop, map_cons]
      · exact (isReady_iff.mp hready).of_perm hall.symm
      intro other hother hotherReady
      refine hbest other (mem_filter.mpr ⟨?_, ?_⟩)
      · exact hall.mem_iff.mp (mem_cons_of_mem _ hother)
      · exact isReady_iff.mpr (hotherReady.of_perm hall)

/-! ## The order of a list of plugins -/

variable {plugins : List P}

theorem stablePluginOrder_perm (plugin : P → Plugin) (phaseRank : P → Nat) (plugins : List P) :
    (stablePluginOrder plugin phaseRank plugins).Perm plugins := by
  have h : (stablePluginOrder plugin phaseRank plugins).Perm ((entriesOf plugins).map (·.2)) :=
    orderLoop_perm nodup_fst_entriesOf
  rw [map_snd_entriesOf] at h
  exact h

theorem mem_nodeIds_graphOf {name} :
    name ∈ nodeIds (graphOf plugin plugins) ↔ ∃ p ∈ plugins, (plugin p).name = name := by
  simp [nodeIds, graphOf, pluginGraphNode]

theorem dependsOn_of_awaits {other} (hentry : entry ∈ entriesOf plugins)
    (hother : other ∈ entriesOf plugins) (h : Awaits plugin entry other) :
    DependsOn (graphOf plugin plugins) (plugin entry.2).name (plugin other.2).name := by
  rw [mem_entriesOf] at hentry hother
  refine ⟨⟨pluginGraphNode (plugin entry.2), ?_, rfl, h⟩, ?_⟩
  · exact mem_map_of_mem (mem_of_getElem? hentry)
  · exact mem_nodeIds_graphOf.mpr ⟨other.2, mem_of_getElem? hother, rfl⟩

/-- Without a cycle, the order is greedy. -/
theorem stablePluginOrder_greedy {phaseRank : P → Nat}
    (hacyclic : ¬ HasCycle (DependsOn (graphOf plugin plugins))) :
    ∃ placed, placed.Perm (entriesOf plugins) ∧
      stablePluginOrder plugin phaseRank plugins = placed.map (·.2) ∧
      Greedy (Awaits plugin) (Preferred plugin phaseRank) placed := by
  refine orderLoop_greedy (by simp [entriesOf]) nodup_fst_entriesOf ?_
  intro hcycle
  refine hacyclic (hcycle.map (fun entry => (plugin entry.2).name) ?_)
  rintro entry other ⟨hentry, hother, h⟩
  exact dependsOn_of_awaits hentry hother h

/-- A greedy order stays one when the entries are numbered by it. -/
theorem greedy_renumbered {placed renumbered}
    (h : Greedy (Awaits plugin) (Preferred plugin phaseRank) placed)
    (hsame : renumbered.map (·.2) = placed.map (·.2))
    (hindexes : renumbered.Pairwise fun a b => a.1 < b.1) :
    Greedy (Awaits plugin) (Preferred plugin phaseRank) renumbered := by
  induction placed generalizing renumbered with
  | nil =>
    rw [map_nil, map_eq_nil_iff] at hsame
    subst hsame
    trivial
  | cons entry placed ih =>
    obtain ⟨first, rest, rfl, hfirst, hrest⟩ := map_eq_cons_iff.mp hsame
    rw [pairwise_cons] at hindexes
    obtain ⟨hready, hbest, hgreedy⟩ := h
    -- readiness only looks at the plugins, not at their numbers
    have hsnd : ∀ {e : Nat × P}, e ∈ first :: rest → ∃ e' ∈ entry :: placed, e'.2 = e.2 := by
      intro e he
      have : e.2 ∈ (entry :: placed).map (·.2) := hsame ▸ mem_map_of_mem he
      exact mem_map.mp this
    have hsnd' : ∀ {e : Nat × P}, e ∈ entry :: placed → ∃ e' ∈ first :: rest, e'.2 = e.2 := by
      intro e he
      have : e.2 ∈ (first :: rest).map (·.2) := hsame ▸ mem_map_of_mem he
      exact mem_map.mp this
    refine ⟨?_, ?_, ih hgreedy hrest hindexes.2⟩
    · intro other hother hawaits
      obtain ⟨other', hother', hname⟩ := hsnd hother
      refine hready other' hother' ?_
      rw [Awaits, hname]
      rw [Awaits, hfirst] at hawaits
      exact hawaits
    · intro other hother hotherReady
      have hmem : other.2 ∈ placed.map (·.2) := hrest ▸ mem_map_of_mem hother
      obtain ⟨other', hother', hplugin⟩ := mem_map.mp hmem
      have hready' : Ready (Awaits plugin) (entry :: placed) other' := by
        intro e he hawaits
        obtain ⟨e', he', hname⟩ := hsnd' he
        refine hotherReady e' he' ?_
        rw [Awaits, hname, ← hplugin]
        exact hawaits
      have hold := hbest other' hother' hready'
      have hlt := hindexes.1 other hother
      simp only [Preferred, placementKey, Prod.Lex.toLex_le_toLex, hfirst, ← hplugin] at hold ⊢
      omega

theorem eq_of_preferred (hnodup : (l.map (·.1)).Nodup) {a b} (ha : a ∈ l) (hb : b ∈ l)
    (hab : Preferred plugin phaseRank a b) (hba : Preferred plugin phaseRank b a) : a = b := by
  have hkey := le_antisymm hab hba
  simp only [placementKey, EmbeddingLike.apply_eq_iff_eq, Prod.mk.injEq] at hkey
  exact inj_on_of_nodup_map hnodup ha hb hkey.2.2

theorem hasCycle_of_perm {result} (hperm : result.Perm plugins)
    (h : HasCycle (DependsOn (graphOf plugin result))) :
    HasCycle (DependsOn (graphOf plugin plugins)) := by
  refine h.map id ?_
  rintro a b ⟨⟨node, hnode, hid, hdeclared⟩, hpresent⟩
  have hgraph : (graphOf plugin result).Perm (graphOf plugin plugins) := hperm.map _
  exact ⟨⟨node, hgraph.mem_iff.mp hnode, hid, hdeclared⟩, (hgraph.map (·.id)).mem_iff.mp hpresent⟩

/-- Ordering an ordered list again changes nothing. -/
theorem stablePluginOrder_idempotent (hacyclic : ¬ HasCycle (DependsOn (graphOf plugin plugins))) :
    stablePluginOrder plugin phaseRank (stablePluginOrder plugin phaseRank plugins)
      = stablePluginOrder plugin phaseRank plugins := by
  obtain ⟨placed, -, hresult, hgreedy⟩ := stablePluginOrder_greedy hacyclic
  generalize hordered : stablePluginOrder plugin phaseRank plugins = result at hresult ⊢
  have hperm : result.Perm plugins := hordered ▸ stablePluginOrder_perm ..
  obtain ⟨placed', hplaced', hresult', hgreedy'⟩ := stablePluginOrder_greedy
      fun hcycle => hacyclic (hasCycle_of_perm hperm hcycle)
  have hself : Greedy (Awaits plugin) (Preferred plugin phaseRank) (entriesOf result) :=
    greedy_renumbered hgreedy (by rw [map_snd_entriesOf, hresult]) entriesOf_pairwise
  have hsame : entriesOf result = placed' := hself.unique hgreedy' hplaced'.symm fun a ha b hb =>
      eq_of_preferred nodup_fst_entriesOf ha hb
  rw [hresult', ← hsame, map_snd_entriesOf]

/-- The whole order. -/
theorem stablePluginOrder_stablyOrdered (hunique : (plugins.map (plugin · |>.name)).Nodup)
    (hacyclic : ¬ HasCycle (DependsOn (graphOf plugin plugins))) :
    StablyOrdered plugin phaseRank plugins (stablePluginOrder plugin phaseRank plugins) := by
  obtain ⟨placed, hplaced, hresult, hgreedy⟩ := stablePluginOrder_greedy hacyclic
  have hperm := stablePluginOrder_perm plugin phaseRank plugins
  have hnodup : plugins.Nodup := hunique.of_map _
  -- a split of the result is a split of the entries
  have hsplit : ∀ before p later,
      stablePluginOrder plugin phaseRank plugins = before ++ p :: later →
      ∃ front entry back, placed = front ++ entry :: back ∧ front.map (·.2) = before ∧
        entry.2 = p ∧ back.map (·.2) = later := by
    intro before p later heq
    rw [hresult] at heq
    obtain ⟨front, tail, hfront, hbefore, htail⟩ := map_eq_append_iff.mp heq
    obtain ⟨entry, back, hback, hp, hlater⟩ := map_eq_cons_iff.mp htail
    exact ⟨front, entry, back, by rw [hfront, hback], hbefore, hp, hlater⟩
  refine ⟨hperm, ?_, ?_, stablePluginOrder_idempotent hacyclic⟩
  · intro before p later heq q hq hdependency
    obtain ⟨front, entry, back, hparts, rfl, rfl, rfl⟩ := hsplit before p later heq
    have hmem : q ∈ placed.map (·.2) := hresult ▸ hperm.mem_iff.mpr hq
    rw [hparts] at hmem hgreedy
    rw [map_append, mem_append] at hmem
    rcases hmem with hmem | hmem
    · exact hmem
    · obtain ⟨other, hother, rfl⟩ := mem_map.mp hmem
      exact absurd hdependency (hgreedy.not_waits other hother)
  · intro before p later heq i j q hi hj hq hplacedDeps
    obtain ⟨front, entry, back, hparts, rfl, rfl, rfl⟩ := hsplit before p later heq
    have hindex : ∀ {k : Nat} {e : Nat × P}, e ∈ placed → plugins[k]? = some e.2 → e.1 = k := by
      intro k e he hk
      have hat := mem_entriesOf.mp (hplaced.mem_iff.mp he)
      exact (List.getElem?_inj (List.getElem?_eq_some_iff.mp hat).1 hnodup).mp (hat.trans hk.symm)
    have hentry : entry.1 = i := hindex (by simp [hparts]) hi
    have hmem : (j, q) ∈ placed := hplaced.mem_iff.mpr (mem_entriesOf.mpr hj)
    rw [← hentry]
    rw [hparts] at hmem hgreedy
    rcases mem_append.mp hmem with hmem | hmem
    · exact absurd (mem_map_of_mem hmem) hq
    rcases mem_cons.mp hmem with rfl | hmem
    · exact le_refl _
    refine hgreedy.least hmem ?_
    intro other hother hawaits
    -- what the plugin depends on was placed before, and nothing is placed twice
    have hresultNodup : ((front ++ entry :: back).map (·.2)).Nodup := by
      rw [← hparts, ← hresult]
      exact hperm.nodup_iff.mpr hnodup
    have hpresent : other.2 ∈ plugins := by
      rw [← hperm.mem_iff, hresult, hparts]
      exact mem_map_of_mem (mem_append_right _ hother)
    have hbefore := hplacedDeps other.2 hpresent hawaits
    rw [map_append, nodup_append] at hresultNodup
    exact hresultNodup.2.2 _ hbefore _ (mem_map_of_mem hother) rfl

end Order

/-! ## Accepted registries -/

section Registration

variable {W E : Type} {pipeline result : Pipeline W E}

theorem finishRegistration_eq_ok (h : finishRegistration pipeline = .ok result) :
    result = pipeline.ordered ∧ validateDependencies pipeline.ordered = .ok () := by
  rw [finishRegistration] at h
  cases hvalid : validateDependencies pipeline.ordered with
  | error error =>
    rw [hvalid] at h
    cases h
  | ok =>
    rw [hvalid] at h
    cases h
    exact ⟨rfl, rfl⟩

/-- What acceptance says about the post-processors. -/
theorem validateDependencies_postProcessors (h : validateDependencies pipeline = .ok ()) :
    (nodeIds (graphOf (·.toPlugin) pipeline.postProcessors)).Nodup ∧
    DependenciesFirst (graphOf (·.toPlugin) pipeline.postProcessors) ∧
    laterPhaseDependency pipeline.postProcessors = none := by
  rw [validateDependencies] at h
  generalize hcategories : ([(.filter, pipeline.filters.map fun p => pluginGraphNode p.toPlugin),
    (.collector, pipeline.collectors.map fun p => pluginGraphNode p.toPlugin),
    (.preProcessor, pipeline.preProcessors.map fun p => pluginGraphNode p.toPlugin),
    (.postProcessor, pipeline.postProcessors.map fun p => pluginGraphNode p.toPlugin),
    (.notifier, pipeline.notifiers.map fun p => pluginGraphNode p.toPlugin)] :
      Categories) = categories at h
  have hmem : (.postProcessor, graphOf (·.toPlugin) pipeline.postProcessors) ∈ categories := by
    rw [← hcategories]
    simp [graphOf]
  cases hvalid : validatePluginRegistryWithPolicy categories false with
  | error error =>
    rw [hvalid] at h
    cases h
  | ok =>
    have hregistry := validateRegistry_ok_iff.mp hvalid
    refine ⟨(nodup_flatMap.mp hregistry.unique).1 _ hmem, hregistry.first _ hmem, ?_⟩
    rw [hvalid] at h
    cases hphase : laterPhaseDependency pipeline.postProcessors with
    | none => rfl
    | some error =>
      simp only [hphase] at h
      cases h

/-- No post-processor depends on one of a later phase. -/
theorem phase_le_of_laterPhaseDependency {processors}
    (hunique : (nodeIds (graphOf (·.toPlugin) processors)).Nodup)
    (h : laterPhaseDependency processors = none) {processor required : PostProcessor W}
    (hprocessor : processor ∈ processors) (hrequired : required ∈ processors)
    (hdependency : required.name ∈ processor.toPlugin.dependencies) :
    postProcessorPhaseRank required.phase ≤ postProcessorPhaseRank processor.phase := by
  simp only [laterPhaseDependency, List.findSome?_eq_none_iff] at h
  obtain ⟨kind, hkind⟩ := mem_declared.mp
    (show required.name ∈ (pluginGraphNode processor.toPlugin).declared from hdependency)
  have hnone := h processor hprocessor (required.name, kind) hkind
  -- the name finds the plugin itself, as no other one has it
  have hfind : processors.find? (·.name = required.name) = some required := by
    cases hfound : processors.find? (·.name = required.name) with
    | none => exact absurd (List.find?_eq_none.mp hfound required hrequired) (by simp)
    | some other =>
      have hname : other.name = required.name := by simpa using List.find?_some hfound
      have hids : (processors.map (·.name)).Nodup := by
        simpa [nodeIds, graphOf, pluginGraphNode, comp_def] using hunique
      rw [inj_on_of_nodup_map hids (mem_of_find?_eq_some hfound) hrequired hname]
  simpa [hfind] using hnone

/-- The post-processors of an accepted registry run in the order of their
phases. -/
theorem finishRegistration_phases (h : finishRegistration pipeline = .ok result) :
    result.postProcessors.Pairwise fun a b =>
      postProcessorPhaseRank a.phase ≤ postProcessorPhaseRank b.phase := by
  obtain ⟨rfl, hvalid⟩ := finishRegistration_eq_ok h
  obtain ⟨hunique, hfirst, hphases⟩ := validateDependencies_postProcessors hvalid
  have hperm : (pipeline.ordered.postProcessors).Perm pipeline.postProcessors :=
    stablePluginOrder_perm ..
  have hacyclic := hfirst.not_hasCycle hunique
  obtain ⟨placed, hplaced, hresult, hgreedy⟩ := stablePluginOrder_greedy
    fun hcycle => hacyclic (hasCycle_of_perm hperm.symm hcycle)
  have hordered : pipeline.ordered.postProcessors = placed.map (·.2) := hresult
  rw [hordered, pairwise_map]
  refine hgreedy.sorted (fun entry => postProcessorPhaseRank entry.2.phase) ?_ ?_
  · intro a _ b _ hab
    simp only [Preferred, placementKey, Prod.Lex.toLex_le_toLex] at hab
    omega
  intro a ha b hb hawaits
  have hmem : ∀ {e}, e ∈ placed → e.2 ∈ pipeline.ordered.postProcessors := by
    intro e he
    rw [hordered]
    exact mem_map_of_mem he
  exact phase_le_of_laterPhaseDependency hunique hphases (hmem ha) (hmem hb) hawaits

end Registration

/-- A list of plugins with unique ids and no cycle is stably ordered, and the
post-processors of every accepted registry are in the order of their phases. -/
theorem plugin_order_stable {P : Type} (plugin : P → Plugin) (phaseRank : P → Nat)
    (plugins : List P) (hunique : (plugins.map (plugin · |>.name)).Nodup)
    (hacyclic : ¬ HasCycle (DependsOn (graphOf plugin plugins))) :
    StablyOrdered plugin phaseRank plugins (stablePluginOrder plugin phaseRank plugins) ∧
    ∀ (W E : Type) (pipeline result : Pipeline W E), finishRegistration pipeline = .ok result →
        result.postProcessors.Pairwise fun a b =>
          postProcessorPhaseRank a.phase ≤ postProcessorPhaseRank b.phase :=
  ⟨stablePluginOrder_stablyOrdered hunique hacyclic, fun _ _ _ _ h => finishRegistration_phases h⟩

/-- A plugin of a small registry: the first one waits for the second. -/
def examplePlugin (dependent : Bool) : Plugin :=
  { Plugin.plain (if dependent then "ReportFormatter" else "PrivacySanitizer") with
    priority := if dependent then .critical else .low
    orderAfter := if dependent then ["PrivacySanitizer"] else [] }

theorem dependency_placed_first :
    stablePluginOrder examplePlugin (fun _ => 0) [true, false] = [false, true] ∧
    StablyOrdered examplePlugin (fun _ => 0) [true, false]
      (stablePluginOrder examplePlugin (fun _ => 0) [true, false]) := by
  have hacyclic : ¬ HasCycle (DependsOn (graphOf examplePlugin [true, false])) := by
    refine not_hasCycle_of_position (fun id => if id = "ReportFormatter" then 1 else 0) ?_
    rintro a b ⟨⟨node, hnode, rfl, hdeclared⟩, -⟩
    simp only [graphOf, map_cons, map_nil, mem_cons, not_mem_nil, or_false] at hnode
    rcases hnode with rfl | rfl
    · have hb : b = "PrivacySanitizer" := by
        simpa [pluginGraphNode, examplePlugin, Plugin.plain, PluginGraphNode.declared]
          using hdeclared
      subst hb
      decide
    · simp [pluginGraphNode, examplePlugin, Plugin.plain, PluginGraphNode.declared] at hdeclared
  exact ⟨by decide, (plugin_order_stable examplePlugin (fun _ => 0) [true, false]
    (by decide) hacyclic).1⟩

end CrashMonitor.Pipeline
